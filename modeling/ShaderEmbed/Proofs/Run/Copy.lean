import ShaderEmbed.Proofs.Compile.Scratch
import ShaderEmbed.Run.Target

/-!
# Scratch copies

A binary stage that is flattened is compiled from a copy of its flattened text. Either there is no
copy, because there is no room for it or the entry ends in no name, and then the compiler is not
asked; or the copy has the name of the entry, lies directly in a scratch directory, holds the text,
and is what the compiler is asked for (`compileFlattened_cases`).
-/

namespace ShaderEmbed

open FileTree

/-- Asking a compiler is recorded, whatever the compiler does. -/
theorem Compiler.goes_ask {compiler : Compiler} {entry : Path}
    {world left : World} {asked : List Path} {result : Except ShaderError Bytes}
    (h : (compiler.compile entry).Goes world asked left result) :
    (compiler.ask entry).Goes world (entry :: asked) left result := by
  obtain ⟨events, heq, rfl⟩ := h
  refine ⟨.asked entry :: events, ?_, rfl⟩
  rw [Compiler.ask, Job.record_bind, heq]
  rfl

theorem Compiler.exists_of_ask {compiler : Compiler} {entry : Path}
    {world left : World} {asked : List Path} {result : Except ShaderError Bytes}
    (h : (compiler.ask entry).Goes world asked left result) :
    ∃ more, (compiler.compile entry).Goes world more left result ∧ asked = entry :: more := by
  obtain ⟨more, left', result', hcompile⟩ := (compiler.compile entry).exists_goes world
  obtain ⟨rfl, rfl, rfl⟩ := h.unique (Compiler.goes_ask hcompile)
  exact ⟨more, hcompile, rfl⟩

namespace Pipeline

variable {self : Pipeline} {world : World} {chosen : Option Path} {path : Path} {place : Place}

/-- What writing the copy of an entry comes to in a scratch directory. An entry that ends in no name
has no copy: its path below the directory ends in dots or in a slash, and no file is written
there. -/
theorem writeCopy_cases (hopened : Scratch.Opened world chosen path place)
    (hclosed : world.tree.IsClosed) (entry : Path) (text : String) :
    (∃ reason, (writeCopy (copyPath path entry) text).Goes
      (world.withTree (Scratch.inside world place)) []
        (world.withTree (Scratch.inside world place)) (.error (.scratch reason))) ∨
      ∃ file later, entry.fileName = some file ∧
        (Scratch.inside world place).writeBytes world.cwd (path.child file) (Text.encode text) =
          .ok later := by
  cases hwrite : (Scratch.inside world place).writeBytes world.cwd
    (copyPath path entry) (Text.encode text) with
  | error reason => exact Or.inl ⟨reason, .changeTree_error (by simp [hwrite, Except.mapError])⟩
  | ok later =>
    cases hfile : entry.fileName with
    | none =>
      have hcopy : copyPath path entry = path.join entry := by simp only [copyPath, hfile]
      obtain ⟨reason, hrefused⟩ := (hopened.isClosed_inside hclosed).writeBytes_of_dotted
        (Path.isDotted_of_fileName hfile path) world.cwd (Text.encode text)
      rw [hcopy, hrefused] at hwrite
      cases hwrite
    | some file =>
      have hcopy : copyPath path entry = path.child file := by simp only [copyPath, hfile]
      exact Or.inr ⟨file, later, rfl, by rwa [hcopy] at hwrite⟩

/-- A copy that is written is compiled, and cleared with its scratch directory. -/
theorem goes_compileFlattened {entry : Path} {file text : String} {copied : FileTree} {left : World}
    {asked : List Path} {result : Except ShaderError Bytes}
    (hmake : Scratch.make self.scratch world =
      ⟨[], world.withTree (Scratch.inside world place), .ok (path, place)⟩)
    (hfile : entry.fileName = some file)
    (hwrite : (Scratch.inside world place).writeBytes world.cwd (path.child file)
      (Text.encode text) = .ok copied)
    (hask : (self.compiler.ask (path.child file)).Goes (world.withTree copied) asked left result) :
    (self.compileFlattened entry text).Goes world asked
      (left.withTree (left.tree.clear place)) result := by
  have hcopy : copyPath path entry = path.child file := by simp only [copyPath, hfile]
  obtain ⟨events, heq, hasked⟩ : (writeCopy (copyPath path entry) text >>= fun _ =>
      self.compiler.ask (copyPath path entry)).Goes
        (world.withTree (Scratch.inside world place)) asked left result := by
    rw [hcopy]
    exact (Job.Goes.changeTree (by simp [hwrite, Except.mapError])).quiet_bind hask
  exact ⟨events, Scratch.within_of_make hmake heq, hasked⟩

/-- Where a scratch directory is made and the name of the entry fits in it, the copy is there when
the compiler is asked for it. -/
theorem exists_copy (hclosed : world.tree.IsClosed) {entry : Path} {opened : World} {name : String}
    (hmake : Scratch.make self.scratch world = ⟨[], opened, .ok (path, place)⟩)
    (hname : entry.fileName = some name) (hspellable : IsSpellable (path.child name))
    (hshort : name.utf8ByteSize ≤ nameLimit) (text : String) :
    ∃ copied, opened.tree.writeBytes opened.cwd (path.child name) (Text.encode text) = .ok copied ∧
      copied.readBytes opened.cwd (path.child name) = .ok (Text.encode text) ∧ copied.IsClosed ∧
      ∀ asked left result,
        (self.compiler.ask (path.child name)).Goes (opened.withTree copied) asked left result →
        (self.compileFlattened entry text).Goes world asked
          (left.withTree (left.tree.clear place)) result := by
  obtain ⟨hopened, rfl⟩ := Scratch.opened_of_make hclosed hmake
  have hisName := Path.isName_of_fileName hname
  obtain ⟨copied, hwrite⟩ : ∃ copied,
      (Scratch.inside world place).writeBytes world.cwd (path.child name)
      (Text.encode text) = .ok copied :=
    ⟨_, (hopened.writeBytes_eq_ok_iff hclosed hisName).mpr ⟨⟨hspellable, hshort⟩, rfl⟩⟩
  exact ⟨copied, hwrite, hopened.readBytes_written hclosed hisName hwrite,
    hopened.isClosed_written hclosed hisName hwrite,
    fun asked left result => goes_compileFlattened hmake hname hwrite⟩

theorem compileFlattened_cases (self : Pipeline) (hclosed : world.tree.IsClosed)
    (entry : Path) (text : String) :
    (∃ left reason, world.Alike left ∧
      (self.compileFlattened entry text).Goes world [] left (.error (.scratch reason))) ∨
      ∃ path place file later, Scratch.Opened world self.scratch path place ∧
      entry.fileName = some file ∧
        (Scratch.inside world place).writeBytes world.cwd (path.child file)
          (Text.encode text) = .ok later ∧
          ∀ asked left result,
            (self.compiler.ask (path.child file)).Goes (world.withTree later) asked left result →
            (self.compileFlattened entry text).Goes world asked
              (left.withTree (left.tree.clear place)) result := by
  rcases Scratch.make_cases hclosed self.scratch with
    ⟨reason, hmake⟩ | ⟨path, place, hopened, hmake⟩
  · exact Or.inl ⟨world, reason, .refl world, [], Job.bind_of_error hmake, rfl⟩
  rcases writeCopy_cases hopened hclosed entry text with
    ⟨reason, hcopy⟩ | ⟨file, later, hfile, hwrite⟩
  · obtain ⟨events, heq, hasked⟩ : (writeCopy (copyPath path entry) text >>= fun _ =>
      self.compiler.ask (copyPath path entry)).Goes _ [] _ _ := hcopy.bind_error
    refine Or.inl ⟨_, reason, ?_, events, Scratch.within_of_make hmake heq, hasked⟩
    exact ⟨_, hopened.alike_clear hclosed fun spot hspot =>
      Scratch.Opened.get?_inside_of_not_prefix hspot, rfl⟩
  · exact Or.inr ⟨path, place, file, later, hopened, hfile, hwrite, fun asked left result =>
      goes_compileFlattened hmake hfile hwrite⟩

/-- What a compilation from a copy has done, if it has succeeded. -/
theorem exists_of_compileFlattened (hclosed : world.tree.IsClosed) {entry : Path}
    {text : String} {left : World} {asked : List Path} {bytes : Bytes}
    (h : (self.compileFlattened entry text).Goes world asked left (.ok bytes)) :
    ∃ path place file copied more next, Scratch.Opened world self.scratch path place ∧
    entry.fileName = some file ∧
      (Scratch.inside world place).writeBytes world.cwd (path.child file)
        (Text.encode text) = .ok copied ∧
        (self.compiler.compile (path.child file)).Goes
          (world.withTree copied) more next (.ok bytes) ∧
          left = next.withTree (next.tree.clear place) := by
  rcases self.compileFlattened_cases hclosed entry text with
    ⟨left', reason, -, hfailed⟩ | ⟨path, place, file, copied, hopened, hfile, hwrite, hcompile⟩
  · obtain ⟨-, -, heq⟩ := h.unique hfailed
    cases heq
  · obtain ⟨more, next, result, hask⟩ :=
      (self.compiler.ask (path.child file)).exists_goes (world.withTree copied)
    obtain ⟨-, rfl, rfl⟩ := h.unique (hcompile _ _ _ hask)
    obtain ⟨more', hdone, -⟩ := Compiler.exists_of_ask hask
    exact ⟨path, place, file, copied, more', next, hopened, hfile, hwrite, hdone, rfl⟩

/-- An entry that ends in no name cannot be compiled from a copy. -/
theorem compileFlattened_of_fileName (self : Pipeline) (hclosed : world.tree.IsClosed)
    {entry : Path} (h : entry.fileName = none) (text : String) :
    ∃ left reason,
      (self.compileFlattened entry text).Goes world [] left (.error (.scratch reason)) := by
  rcases self.compileFlattened_cases hclosed entry text with ⟨left, reason, -, hgoes⟩ |
    ⟨_, _, file, _, _, hfile, -⟩
  · exact ⟨left, reason, hgoes⟩
  · rw [h] at hfile
    cases hfile

end Pipeline

end ShaderEmbed
