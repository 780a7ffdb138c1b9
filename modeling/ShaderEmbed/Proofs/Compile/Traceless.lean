import ShaderEmbed.Proofs.Compile.Tool

/-!
# Compilations leave no trace

A tool may be missing, fail, print anything, and leave any output or none. As long as it writes
nowhere but in the scratch directory that its output belongs to (`ExternalTool.StaysInScratch`), a
compilation leaves the world as it found it, with nothing of the scratch directory, whichever way it
ends; and so does a compilation from a scratch copy, which works in two scratch directories. This
rests on one fact: what is cleared was not there before, so that clearing it undoes whatever has
been done below it (`Scratch.Opened.alike_clear`).

What a compilation yields is what the tool has left, and it yields something only if the tool was
started, succeeded, and left an output that can be read (`ExternalTool.compile_eq_ok_iff`).
-/

namespace ShaderEmbed

open FileTree

/-- Nothing in a tree is left of the scratch directory that would be made in a world. -/
def Scratch.IsGone (chosen : Option Path) (world : World) (tree : FileTree) : Prop :=
  ∀ {events : List Event} {opened : World} {path : Path} {place : Place},
    make chosen world = ⟨events, opened, .ok (path, place)⟩ →
    ∀ spot, place <+: spot → tree.get? spot = none

/-- A scratch directory is made where nothing is, so that an earlier tree has nothing of it. -/
theorem Scratch.isGone_of_grows {chosen : Option Path} {world : World}
    (hclosed : world.tree.IsClosed) {tree : FileTree} (htree : tree.IsClosed)
    (hgrows : tree.Grows world.tree) : IsGone chosen world tree := by
  intro events opened path place hmake spot hspot
  obtain ⟨hopened, rfl⟩ := opened_of_make hclosed hmake
  have hnone : tree.get? place = none := by
    by_contra hsome
    obtain ⟨entry, hentry⟩ := Option.ne_none_iff_exists'.mp hsome
    obtain ⟨later, hlater, -⟩ := hgrows place entry hentry
    cases hopened.free.none.symm.trans hlater
  exact htree.below hnone hspot

namespace ExternalTool

/-- The tool writes nowhere but in the scratch directory that its output belongs to. -/
def StaysInScratch (tool : ExternalTool) (world : World) : Prop :=
  ∀ {tree : FileTree} {entry path : Path} {place : Place} {run : ToolRun}, tree.IsClosed →
    Scratch.Opened (world.withTree tree) tool.scratch path place →
    tool.launch world.tools world.cwd (tree.put place .directory) entry
      (path.join (outputName entry)) = .ok run →
      ∀ spot, ¬ place <+: spot → run.tree.get? spot = tree.get? spot

/-- The tool is started in a new scratch directory, succeeds, and leaves an output that can be
read. -/
def Delivers (tool : ExternalTool) (world : World) (entry : Path) (bytes : Bytes) : Prop :=
  ∃ opened directory place run, Scratch.make tool.scratch world =
    ⟨[], opened, .ok (directory, place)⟩ ∧
    tool.launch opened.tools opened.cwd opened.tree entry (directory.join (outputName entry)) =
      .ok run ∧
    run.status.isSuccess = true ∧
    run.tree.readBytes opened.cwd (directory.join (outputName entry)) = .ok bytes

variable {self : ExternalTool} {world : World} {entry : Path} {bytes : Bytes}

/-- A tool that writes to its output at most stays in its scratch directory. -/
theorem WritesOutputOnly.staysInScratch (h : self.WritesOutputOnly world.tools world.cwd) :
    self.StaysInScratch world := by
  intro tree entry path place run hclosed hopened hlaunch spot hspot
  have hinside : (tree.put place .directory).IsClosed := hopened.isClosed_inside hclosed
  have hkept : (Scratch.inside (world.withTree tree) place).get? spot =
      (world.withTree tree).tree.get? spot :=
    Scratch.Opened.get?_inside_of_not_prefix hspot
  have hdotted (dots : Path) (hname : dots.fileName = none) (houtput : outputName entry = dots) :
      run.tree.get? spot = tree.get? spot := by
    rcases h.frame hinside hlaunch with hsame | ⟨content, hwrite⟩
    · rw [hsame]
      exact hkept
    · obtain ⟨reason, hrefused⟩ :=
        hinside.writeBytes_of_dotted (Path.isDotted_of_fileName hname path) world.cwd content
      rw [houtput, hrefused] at hwrite
      cases hwrite
  rcases outputName_cases entry with ⟨-, below, hbelow, houtput⟩ | ⟨-, houtput | houtput⟩
  · have hlater : self.WritesOutputOnly (world.withTree tree).tools (world.withTree tree).cwd := h
    rw [houtput] at hlaunch
    exact hlater.get?_of_launch hclosed hopened hbelow hlaunch hspot
  · exact hdotted _ (by decide +kernel) houtput
  · exact hdotted _ (by decide +kernel) houtput

/-! ## One compilation -/

/-- A compilation is not begun, or its tool is started in a scratch directory that is cleared in the
end. -/
theorem compile_cases (self : ExternalTool) (hclosed : world.tree.IsClosed) (entry : Path) :
    (∃ reason, Scratch.make self.scratch world = ⟨[], world, .error (.scratch reason)⟩ ∧
      (self.compiler.compile entry).Goes world [] world (.error (.scratch reason))) ∨
      ∃ path place left result, Scratch.Opened world self.scratch path place ∧
        Scratch.make self.scratch world =
          ⟨[], world.withTree (Scratch.inside world place), .ok (path, place)⟩ ∧
        self.CompilesTo (world.withTree (Scratch.inside world place)) entry
          (path.join (outputName entry)) left result ∧
        (self.compiler.compile entry).Goes world []
          (left.withTree (left.tree.clear place)) result := by
  rcases Scratch.make_cases hclosed self.scratch with
    ⟨reason, hmake⟩ | ⟨path, place, hopened, hmake⟩
  · exact Or.inl ⟨reason, hmake, [], Job.bind_of_error hmake, rfl⟩
  · obtain ⟨left, result, ⟨events, heq, hasked⟩, hcompiles⟩ :=
      self.compilesTo (world.withTree (Scratch.inside world place)) entry
        (path.join (outputName entry))
    exact Or.inr ⟨path, place, left, result, hopened, hmake, hcompiles, events,
      compile_of_make self hmake heq, hasked⟩

theorem exists_goes_compile (self : ExternalTool) (hclosed : world.tree.IsClosed) (entry : Path) :
    ∃ left result, (self.compiler.compile entry).Goes world [] left result := by
  rcases self.compile_cases hclosed entry with
    ⟨reason, -, hgoes⟩ | ⟨path, place, left, result, -, -, -, hgoes⟩
  · exact ⟨_, _, hgoes⟩
  · exact ⟨_, _, hgoes⟩

/-- Whichever way it ends, a compilation leaves the world as it was. -/
theorem StaysInScratch.alike_of_goes (h : self.StaysInScratch world) (hclosed : world.tree.IsClosed)
    {asked : List Path} {left : World} {result : Except ShaderError Bytes}
    (hgoes : (self.compiler.compile entry).Goes world asked left result) : world.Alike left := by
  rcases self.compile_cases hclosed entry with
    ⟨reason, -, hfailed⟩ | ⟨path, place, next, result', hopened, -, hcompiles, hdone⟩
  · obtain ⟨-, rfl, -⟩ := hgoes.unique hfailed
    exact .refl _
  · obtain ⟨-, rfl, -⟩ := hgoes.unique hdone
    have hstart (spot : Place) (hspot : ¬ place <+: spot) :
        (Scratch.inside world place).get? spot = world.tree.get? spot :=
          Scratch.Opened.get?_inside_of_not_prefix hspot
    have hrun {run : ToolRun} (hlaunch : self.launch world.tools world.cwd
        (Scratch.inside world place) entry
        (path.join (outputName entry)) = .ok run) : world.tree.Alike (run.tree.clear place) :=
      hopened.alike_clear hclosed (h hclosed hopened hlaunch)
    cases hcompiles with
    | unlaunched hlaunch => exact ⟨_, hopened.alike_clear hclosed hstart, rfl⟩
    | failed hlaunch | unread hlaunch | done hlaunch => exact ⟨_, hrun hlaunch, rfl⟩

/-- A compilation yields what its tool has left in the scratch directory, if it was started,
succeeded, and left it. -/
theorem compile_eq_ok_iff (hclosed : world.tree.IsClosed) :
    (self.compiler.compile entry world).result = .ok bytes ↔ self.Delivers world entry bytes := by
  rcases self.compile_cases hclosed entry with
    ⟨reason, hmake, events, heq, -⟩ |
    ⟨path, place, left, result, -, hmake, hcompiles, events, heq, -⟩
  · rw [heq]
    constructor
    · intro hok
      cases hok
    · rintro ⟨opened, directory, place, run, hmade, -⟩
      cases hmake.symm.trans hmade
  · rw [heq]
    constructor
    · rintro rfl
      cases hcompiles with
      | done hlaunch hsuccess hread => exact ⟨_, _, _, _, hmake, hlaunch, hsuccess, hread⟩
    · rintro ⟨opened, directory, place', run, hmade, hlaunch, hsuccess, hread⟩
      cases hmake.symm.trans hmade
      cases hcompiles with
      | unlaunched hlaunch' => cases hlaunch.symm.trans hlaunch'
      | failed hlaunch' hfailed =>
        cases hlaunch.symm.trans hlaunch'
        exact absurd hsuccess hfailed
      | unread hlaunch' _ hread' =>
        cases hlaunch.symm.trans hlaunch'
        cases hread.symm.trans hread'
      | done hlaunch' _ hread' =>
        cases hlaunch.symm.trans hlaunch'
        cases hread.symm.trans hread'
        rfl

/-! ## A compilation from a copy -/

/-- Whichever way it ends, a compilation from a copy leaves the world as it was. -/
theorem StaysInScratch.alike_of_goes_flattened (h : self.StaysInScratch world)
    (hclosed : world.tree.IsClosed) {pipeline : Pipeline} {text : String} {asked : List Path}
    {left : World} {result : Except ShaderError Bytes}
    (hgoes : ((pipeline.withTool self).compileFlattened entry text).Goes world asked left result) :
    world.Alike left := by
  rcases (pipeline.withTool self).compileFlattened_cases hclosed entry text with
    ⟨next, reason, halike, hfailed⟩ | ⟨path, place, file, copied, hopened, hfile, hwrite, hcompile⟩
  · obtain ⟨-, rfl, -⟩ := hgoes.unique hfailed
    exact halike
  · have hname := Path.isName_of_fileName hfile
    have hcopied : (world.withTree copied).tree.IsClosed :=
      hopened.isClosed_written hclosed hname hwrite
    obtain ⟨next, result', hinner⟩ := self.exists_goes_compile hcopied (path.child file)
    obtain ⟨-, rfl, -⟩ := hgoes.unique (hcompile _ _ _ (Compiler.goes_ask hinner))
    have hstays : self.StaysInScratch (world.withTree copied) := h
    obtain ⟨tree, halike, rfl⟩ := hstays.alike_of_goes hcopied hinner
    refine ⟨_, hopened.alike_clear hclosed fun spot hspot => ?_, rfl⟩
    calc tree.get? spot
        = copied.get? spot := halike spot
      _ = world.tree.get? spot := hopened.get?_written hclosed hname hwrite hspot

theorem grows_of_copy {chosen : Option Path} (hclosed : world.tree.IsClosed)
    {events : List Event} {opened : World} {path : Path} {place : Place}
    {text : String} {copied : FileTree}
    (hmake : Scratch.make chosen world = ⟨events, opened, .ok (path, place)⟩)
    (hwrite : opened.tree.writeBytes opened.cwd (Pipeline.copyPath path entry)
      (Text.encode text) = .ok copied) :
    world.tree.Grows copied ∧ copied.IsClosed := by
  obtain ⟨hopened, rfl⟩ := Scratch.opened_of_make hclosed hmake
  have hinside := hopened.isClosed_inside hclosed
  obtain ⟨spot, -, hwrote⟩ := hinside.writeBytes_eq_ok_iff.mp hwrite
  exact ⟨hopened.grows_inside.trans hwrote.grows, hwrote.isClosed hinside⟩

/-- A compilation leaves the world as it was, with nothing of its scratch directory, and yields what
the tool delivers. A compilation from a copy leaves the world as it was too, with nothing of either
of its scratch directories. -/
structure LeavesNoTrace (tool : ExternalTool) (pipeline : Pipeline) (world : World)
    (entry : Path) : Prop where
  alike : world.Alike (tool.compiler.compile entry world).world
  gone : Scratch.IsGone tool.scratch world (tool.compiler.compile entry world).world.tree
  ok_iff : ∀ bytes, (tool.compiler.compile entry world).result = .ok bytes ↔
    tool.Delivers world entry bytes
  copy_alike : ∀ text,
    world.Alike ((pipeline.withTool tool).compileFlattened entry text world).world
  copy_gone : ∀ text, Scratch.IsGone pipeline.scratch world
    ((pipeline.withTool tool).compileFlattened entry text world).world.tree
  output_gone : ∀ {text events opened path place copied},
    Scratch.make pipeline.scratch world = ⟨events, opened, .ok (path, place)⟩ →
    opened.tree.writeBytes opened.cwd (Pipeline.copyPath path entry)
      (Text.encode text) = .ok copied →
      Scratch.IsGone tool.scratch (opened.withTree copied)
        ((pipeline.withTool tool).compileFlattened entry text world).world.tree

theorem StaysInScratch.leaves_no_trace (h : self.StaysInScratch world)
    (hclosed : world.tree.IsClosed) (pipeline : Pipeline) (entry : Path) :
    LeavesNoTrace self pipeline world entry := by
  have hcompile : world.Alike (self.compiler.compile entry world).world :=
    h.alike_of_goes hclosed ⟨_, rfl, rfl⟩
  have hflattened (text : String) :
      world.Alike ((pipeline.withTool self).compileFlattened entry text world).world :=
    h.alike_of_goes_flattened hclosed ⟨_, rfl, rfl⟩
  have hgrows {left : World} (halike : world.Alike left) : left.tree.Grows world.tree := by
    obtain ⟨tree, halike, rfl⟩ := halike
    exact halike.symm.grows
  refine ⟨hcompile, ?_, fun bytes => compile_eq_ok_iff hclosed, hflattened, fun text => ?_, ?_⟩
  · exact Scratch.isGone_of_grows hclosed (hcompile.isClosed hclosed) (hgrows hcompile)
  · exact Scratch.isGone_of_grows hclosed ((hflattened text).isClosed hclosed)
      (hgrows (hflattened text))
  · intro text events opened path place copied hmake hwrite
    obtain ⟨hlater, hcopied⟩ := grows_of_copy hclosed hmake hwrite
    exact Scratch.isGone_of_grows hcopied ((hflattened text).isClosed hclosed)
      ((hgrows (hflattened text)).trans hlater)

/-! ## Example -/

/-- A tool for the toolbox that copies, with its scratch directories at the root. -/
def copyingTool : ExternalTool := ⟨⟨"cp"⟩, [], some ⟨"/"⟩⟩

def copyingWorld : World :=
  ⟨FileTree.empty.put ["a.vert"] (.file [118]), [], ⟨"/tmp"⟩, copying, none⟩

theorem isClosed_copyingWorld : copyingWorld.tree.IsClosed := isClosed_empty.put rfl (by decide)

theorem delivers_copying : copyingTool.Delivers copyingWorld ⟨"a.vert"⟩ [118] := by
  have hfree : copyingWorld.tree.get? ([] ++ [(Scratch.numbered 0).text]) =
      none := by decide +kernel
  have hchosen : Scratch.parent copyingWorld copyingTool.scratch = .ok ⟨"/"⟩ := rfl
  obtain ⟨n, hopened, hmake⟩ :=
    (Scratch.parent_root copyingWorld).make isClosed_copyingWorld (Scratch.drawsFree_of_counted rfl)
      ⟨_, hfree⟩ hchosen
  have hbelow : Component.IsName "a.bin" := by decide +kernel
  have houtput : outputName ⟨"a.vert"⟩ = ⟨"a.bin"⟩ := by decide +kernel
  obtain ⟨later, hwrite⟩ : ∃ later,
      (Scratch.inside copyingWorld ([] ++ [n.text])).writeBytes copyingWorld.cwd
      (((Path.mk "/").child n.text).child "a.bin") [118] = .ok later :=
    ⟨_, (hopened.writeBytes_eq_ok_iff isClosed_copyingWorld hbelow).mpr
      ⟨⟨Scratch.isSpellable_root_output n, by decide⟩, rfl⟩⟩
  have hname : IsFileName "a.vert" := by decide +kernel
  have hfind : find copyingWorld.tree .pass copyingWorld.cwd ⟨"a.vert"⟩ = .ok ["a.vert"] :=
    hname.find_eq rfl fun target hlink => nomatch hlink
  have hlook : copyingWorld.tree.look copyingWorld.cwd ⟨"a.vert"⟩ = .ok (["a.vert"], .file [118]) :=
    look_eq_ok_iff.mpr ⟨hfind, rfl⟩
  have hread := readBytes_of_look_file (hopened.look_inside hlook)
  have hbytes := hopened.readBytes_written isClosed_copyingWorld hbelow hwrite
  rw [show ((Path.mk "/").child n.text).child "a.bin" =
    ((Path.mk "/").child n.text).join (outputName ⟨"a.vert"⟩) by rw [houtput]; rfl] at hwrite hbytes
  have hlaunch : copyingTool.launch copying copyingWorld.cwd
      (Scratch.inside copyingWorld ([] ++ [n.text]))
      ⟨"a.vert"⟩ _ = .ok ⟨.code 0, [], later⟩ :=
        (launch_copying_eq_ok_iff rfl).mpr ⟨_, _, hread, hwrite, rfl⟩
  exact ⟨_, _, _, _, hmake, hlaunch, rfl, hbytes⟩

theorem leaves_no_trace_copying :
    copyingTool.StaysInScratch copyingWorld ∧ copyingWorld.tree.IsClosed ∧
      copyingTool.Delivers copyingWorld ⟨"a.vert"⟩ [118] ∧
      LeavesNoTrace copyingTool Pipeline.plainPipeline copyingWorld ⟨"a.vert"⟩ := by
  have htool : copyingTool.IsDeterministic copyingWorld.tools copyingWorld.cwd ∅ :=
    isDeterministic_copying rfl _ _
  have hstays : copyingTool.StaysInScratch copyingWorld := htool.writesOutputOnly.staysInScratch
  exact ⟨hstays, isClosed_copyingWorld, delivers_copying,
    hstays.leaves_no_trace isClosed_copyingWorld _ _⟩

end ExternalTool

end ShaderEmbed
