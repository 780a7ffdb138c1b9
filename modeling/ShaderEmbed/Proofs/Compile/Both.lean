import ShaderEmbed.Proofs.Compile.Tool
import ShaderEmbed.Proofs.File.Additions

/-!
# Compiling in two trees

A deterministic tool that succeeds in two trees makes the same in both, if one of them lets it read
of its entry what the other does, and both supply what it reads besides
(`ExternalTool.IsDeterministic.bytes_eq`). In two trees that have grown from one the first is always
so, as long as the entry is no file that was written (`bytes_eq_of_compile`): an entry that can be
read in both is one file, and an entry that cannot be read is nothing that the tool depends on.
-/

namespace ShaderEmbed

open FileTree

theorem Scratch.parent_unique {world : World} {one other : FileTree}
    {chosen : Option Path} {parent parent' : Path}
    (h : Scratch.parent (world.withTree one) chosen = .ok parent)
    (h' : Scratch.parent (world.withTree other) chosen = .ok parent') : parent = parent' := by
  cases chosen with
  | none => exact Except.ok.inj (h.symm.trans h')
  | some chosen =>
    simp only [Scratch.parent] at h h'
    split at h
    · rw [if_pos ‹_›] at h'
      exact Except.ok.inj (h.symm.trans h')
    · rw [if_neg ‹_›] at h'
      obtain ⟨directory, hdirectory, rfl⟩ := exists_of_map_eq_ok h
      obtain ⟨directory', hdirectory', rfl⟩ := exists_of_map_eq_ok h'
      unfold World.directory at hdirectory hdirectory'
      split at hdirectory <;> cases hdirectory
      split at hdirectory' <;> cases hdirectory'
      rfl

namespace ExternalTool

/-- What a tool reads besides its entry is there as it was at first. What was not there is in no
scratch directory. -/
structure Supplies (first tree : FileTree) (inputs : Set Place) : Prop where
  same : ∀ place ∈ inputs, tree.get? place = first.get? place
  apart : ∀ place ∈ inputs, first.get? place = none → ∀ n : Scratch.Name, n.text ∉ place

section Scratch

variable {world : World} {chosen : Option Path} {path : Path} {above place : Place}
  {n : Scratch.Name} {first copied : FileTree} {inputs : Set Place}

/-- No scratch directory is made above what is supplied. -/
theorem Supplies.not_prefix (h : Supplies first world.tree inputs) (hclosed : world.tree.IsClosed)
    (hopened : Scratch.Opened world chosen path (above ++ [n.text])) (hplace : place ∈ inputs) :
    ¬ above ++ [n.text] <+: place := by
  intro hunder
  cases hfirst : first.get? place with
  | none => exact h.apart place hplace hfirst n (hunder.subset (by simp))
  | some held =>
    have hheld := (h.same place hplace).trans hfirst
    cases (hclosed.below hopened.free.none hunder).symm.trans hheld

theorem Supplies.inside (h : Supplies first world.tree inputs) (hclosed : world.tree.IsClosed)
    (hopened : Scratch.Opened world chosen path (above ++ [n.text])) :
    Supplies first (Scratch.inside world (above ++ [n.text])) inputs where
  same place hplace := by
    rw [Scratch.Opened.get?_inside_of_not_prefix (h.not_prefix hclosed hopened hplace),
      h.same place hplace]
  apart := h.apart

theorem Supplies.written (h : Supplies first world.tree inputs) (hclosed : world.tree.IsClosed)
    (hopened : Scratch.Opened world chosen path (above ++ [n.text]))
    {file : String} {content : Bytes}
    (hfile : Component.IsName file)
    (hwrite : (Scratch.inside world (above ++ [n.text])).writeBytes world.cwd
      (path.child file) content = .ok copied) : Supplies first copied inputs where
  same place hplace := by
    rw [hopened.get?_written hclosed hfile hwrite (h.not_prefix hclosed hopened hplace),
      h.same place hplace]
  apart := h.apart

end Scratch

variable {self : ExternalTool} {world : World} {inputs places : Set Place}
  {first one other : FileTree} {entry entry' parent parent' : Path} {above above' : Place}
  {n m : Scratch.Name} {below below' : String} {run run' : ToolRun}
  {bytes bytes' : Bytes} {asked asked' : List Path} {next next' : World}

/-- What the tool makes in one tree, it makes in another that offers as much. -/
theorem IsDeterministic.bytes_eq (h : self.IsDeterministic world.tools world.cwd inputs)
    (hone : one.IsClosed) (hother : other.IsClosed)
    (hcompiled : self.Compiled (world.withTree one) entry bytes parent above n below run)
    (hcompiled' : self.Compiled (world.withTree other) entry' bytes' parent' above' m below' run')
    (hsiblings : Scratch.Siblings entry entry')
    (hentry : ∀ content,
      (Scratch.inside (world.withTree one) (above ++ [n.text])).readBytes world.cwd entry =
        .ok content →
      (Scratch.inside (world.withTree other) (above' ++ [m.text])).readBytes world.cwd entry' =
        .ok content)
    (hsupplies : Supplies first one inputs) (hsupplies' : Supplies first other inputs) :
    bytes = bytes' := by
  obtain rfl := Scratch.parent_unique hcompiled.chosen hcompiled'.chosen
  have hnames : (⟨below'⟩ : Path) = ⟨below⟩ := by
    rw [← hcompiled'.output, outputName_of_siblings hsiblings, hcompiled.output]
  cases hnames
  have hone' : (world.withTree one).tree.IsClosed := hone
  have hother' : (world.withTree other).tree.IsClosed := hother
  have hbytes := hcompiled.opened.readBytes_written hone' hcompiled.isName hcompiled.wrote
  have hbytes' := hcompiled'.opened.readBytes_written hother' hcompiled'.isName hcompiled'.wrote
  obtain ⟨written, hwrite⟩ :=
    hcompiled.opened.exists_written hone' hcompiled'.opened hother' hcompiled.isName hcompiled.wrote
  have hkept := hcompiled'.opened.readBytes_written hother' hcompiled.isName hwrite
  have hin : Supplies first (Scratch.inside (world.withTree one) _) inputs :=
    hsupplies.inside hone' hcompiled.opened
  have hin' : Supplies first (Scratch.inside (world.withTree other) _) inputs :=
    hsupplies'.inside hother' hcompiled'.opened
  -- the tool is started in the other tree as it would be to make the same there
  obtain ⟨run'', hlaunch, -, hagain⟩ := h.again (hcompiled.opened.isClosed_inside hone')
    (hcompiled'.opened.isClosed_inside hother') hsiblings (.moved parent n m hcompiled.isName)
    (fun old => hcompiled.opened.readBytes_inside hone' hcompiled.isName)
    hcompiled.launched hcompiled.success hbytes
    hentry (fun place hplace => (hin'.same place hplace).trans (hin.same place hplace).symm)
      ⟨written, hwrite, hkept⟩
  cases hlaunch.symm.trans hcompiled'.launched
  exact Except.ok.inj (hagain.symm.trans hbytes')

/-! ## Trees that have grown from one -/

theorem Compiled.addsFiles
    (h : self.Compiled (world.withTree one) entry bytes parent above n below run)
    (hone : first.AddsFiles one places) :
    first.AddsFiles (Scratch.inside (world.withTree one) (above ++ [n.text])) places :=
  hone.trans ((addsDirectories_put h.opened.free.none).addsFiles places)

/-- An entry that is compiled in two trees that have grown from one is compiled to the same. -/
theorem IsDeterministic.bytes_eq_of_compile (h : self.IsDeterministic world.tools world.cwd inputs)
    (hone : one.IsClosed) (hother : other.IsClosed) (hadds : first.AddsFiles one places)
    (hadds' : first.AddsFiles other places) (hsupplies : Supplies first one inputs)
    (hsupplies' : Supplies first other inputs)
    (hspares : ∀ tree place held, first.AddsFiles tree places →
      tree.look world.cwd entry = .ok (place, held) →
      place ∉ places)
    (hgoes : (self.compiler.compile entry).Goes (world.withTree one) asked next (.ok bytes))
    (hgoes' : (self.compiler.compile entry).Goes (world.withTree other) asked' next' (.ok bytes')) :
    bytes = bytes' := by
  have htool {tree : FileTree} :
      self.IsDeterministic (world.withTree tree).tools (world.withTree tree).cwd inputs := h
  obtain ⟨parent, above, n, below, run, hcompiled, -⟩ :=
    htool.writesOutputOnly.exists_compiled hone hgoes
  obtain ⟨parent', above', m, below', run', hcompiled', -⟩ :=
    htool.writesOutputOnly.exists_compiled hother hgoes'
  have hin := hcompiled.addsFiles hadds
  have hin' := hcompiled'.addsFiles hadds'
  cases hread :
    (Scratch.inside (world.withTree one) (above ++ [n.text])).readBytes world.cwd entry with
  | error reason =>
    refine h.bytes_eq hone hother hcompiled hcompiled' (.refl entry) ?_ hsupplies hsupplies'
    intro content hcontent
    cases hread.symm.trans hcontent
  | ok content =>
    refine (h.bytes_eq hother hone hcompiled' hcompiled (.refl entry) ?_ hsupplies' hsupplies).symm
    intro content' hcontent'
    rw [hin'.readBytes_eq hin (fun place held => hspares _ place held hin') hcontent' hread, hread]

end ExternalTool

end ShaderEmbed
