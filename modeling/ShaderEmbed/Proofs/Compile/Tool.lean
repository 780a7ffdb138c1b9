import Mathlib.Data.Set.Defs
import ShaderEmbed.Proofs.Compile.Output

/-!
# Compiling the same again

A tool is deterministic if it changes nothing but its output, and if what it leaves there depends on
what it is given only: the names and the content of its entry, and files that it reads besides
(`ExternalTool.IsDeterministic`). Its entries and outputs lie in scratch directories, which are
never the same twice; so a path counts as given again if it is the same or has the same name in
another scratch directory (`Scratch.Siblings`).

A compilation with a tool that changes nothing but its output leaves the tree as it was
(`WritesOutputOnly.compile_alike`). With a deterministic one it succeeds with the same bytes in
every tree that has what the tool was given and room for a scratch directory
(`IsDeterministic.compile_again`).
-/

namespace ShaderEmbed

open FileTree

/-- The same path, or one name in two scratch directories of one parent. -/
inductive Scratch.Siblings : Path → Path → Prop
  | refl (p : Path) : Siblings p p
  | moved (parent : Path) (n m : Scratch.Name) {below : String} (hbelow : Component.IsName below) :
      Siblings ((parent.child n.text).child below) ((parent.child m.text).child below)

theorem Scratch.Siblings.fileName {p q : Path} (h : Siblings p q) : q.fileName = p.fileName := by
  cases h with
  | refl => rfl
  | moved parent n m hbelow => rw [Path.fileName_child _ hbelow, Path.fileName_child _ hbelow]

namespace ExternalTool

/-- How a toolbox answers when the tool is started on an entry. -/
def launch (self : ExternalTool) (tools : Toolbox) (cwd : Place)
    (tree : FileTree) (entry output : Path) :
    Except FileError ToolRun :=
  tools.start self.tool (self.arguments ++ [entry.text, "-o", output.text]) cwd tree

/-- A tool that does the same when it is given the same. Besides its entry it reads what is at some
places. -/
structure IsDeterministic (tool : ExternalTool) (tools : Toolbox) (cwd : Place)
    (inputs : Set Place) : Prop where
  /-- The tool changes nothing but its output. -/
  frame : ∀ {tree : FileTree} {entry output : Path} {run : ToolRun}, tree.IsClosed →
    tool.launch tools cwd tree entry output = .ok run →
      run.tree = tree ∨ ∃ content, tree.writeBytes cwd output content = .ok run.tree
  /-- Where the tool has made its output once, it makes the same output again, under another name
  perhaps, if it finds what it could read of its entry then, the same inputs, and a place where the
  output can be kept. -/
  again : ∀ {tree tree' : FileTree} {entry entry' output output' : Path}
    {run : ToolRun} {bytes : Bytes},
    tree.IsClosed → tree'.IsClosed → Scratch.Siblings entry entry' →
    Scratch.Siblings output output' →
    (∀ old, tree.readBytes cwd output ≠ .ok old) →
    tool.launch tools cwd tree entry output = .ok run →
    run.status.isSuccess = true → run.tree.readBytes cwd output = .ok bytes →
    (∀ content, tree.readBytes cwd entry = .ok content → tree'.readBytes cwd entry' = .ok content) →
    (∀ place ∈ inputs, tree'.get? place = tree.get? place) →
    (∃ later, tree'.writeBytes cwd output' bytes = .ok later ∧
      later.readBytes cwd output' = .ok bytes) →
      ∃ run', tool.launch tools cwd tree' entry' output' = .ok run' ∧ run'.status.isSuccess = true ∧
        run'.tree.readBytes cwd output' = .ok bytes

/-- A tool that changes nothing but its output, whatever it depends on. -/
structure WritesOutputOnly (tool : ExternalTool) (tools : Toolbox) (cwd : Place) : Prop where
  frame : ∀ {tree : FileTree} {entry output : Path} {run : ToolRun}, tree.IsClosed →
    tool.launch tools cwd tree entry output = .ok run →
      run.tree = tree ∨ ∃ content, tree.writeBytes cwd output content = .ok run.tree

variable {self : ExternalTool} {now next : World} {entry output : Path}
  {asked : List Path} {bytes : Bytes} {inputs : Set Place}

theorem IsDeterministic.writesOutputOnly {tools : Toolbox} {cwd : Place}
    (h : self.IsDeterministic tools cwd inputs) :
    self.WritesOutputOnly tools cwd := ⟨h.frame⟩

/-- Tools that copy the entry to the output. -/
def copying : Toolbox where
  start _ arguments cwd tree :=
    match arguments with
    | [entry, _, output] => do
      let content ← tree.readBytes cwd ⟨entry⟩
      let later ← tree.writeBytes cwd ⟨output⟩ content
      return ⟨.code 0, [], later⟩
    | _ => .error (.system .noEntry)
  draw := Scratch.counted

theorem launch_copying_eq_ok_iff (harguments : self.arguments = []) {cwd : Place}
    {tree : FileTree} {run : ToolRun} :
    self.launch copying cwd tree entry output = .ok run ↔
      ∃ content later, tree.readBytes cwd entry = .ok content ∧
        tree.writeBytes cwd output content = .ok later ∧
        run = ⟨.code 0, [], later⟩ := by
  unfold launch
  rw [harguments]
  show (tree.readBytes cwd entry >>= fun content =>
      tree.writeBytes cwd output content >>= fun later =>
    pure (ToolRun.mk (.code 0) [] later)) = .ok run ↔ _
  cases tree.readBytes cwd entry with
  | error reason => simp [bind, Except.bind]
  | ok content =>
    cases hwrite : tree.writeBytes cwd output content with
    | error reason => simp [bind, Except.bind, hwrite]
    | ok later => simp [bind, Except.bind, hwrite, pure, Except.pure, eq_comm (a := run)]

/-- A tool that copies is deterministic, whatever else it might read. -/
theorem isDeterministic_copying (harguments : self.arguments = [])
    (cwd : Place) (inputs : Set Place) :
    self.IsDeterministic copying cwd inputs where
  frame _ hlaunch := by
    obtain ⟨content, later, -, hwrite, rfl⟩ := (launch_copying_eq_ok_iff harguments).mp hlaunch
    exact Or.inr ⟨content, hwrite⟩
  again hclosed _ _ _ hfresh hlaunch _ hbytes hentry _ hkept := by
    obtain ⟨content, later, hread, hwrite, rfl⟩ := (launch_copying_eq_ok_iff harguments).mp hlaunch
    obtain rfl : content = _ :=
      Except.ok.inj ((hclosed.readBytes_of_written hfresh hwrite).symm.trans hbytes)
    obtain ⟨later', hwrite', hbytes'⟩ := hkept
    exact ⟨_, (launch_copying_eq_ok_iff harguments).mpr ⟨content, later', hentry content hread,
      hwrite', rfl⟩, rfl, hbytes'⟩

/-! ## One start of the tool -/

theorem start_of_launch {world : World} {run : ToolRun}
    (h : self.launch world.tools world.cwd world.tree entry output = .ok run) :
    self.start entry output world = ⟨[], world.withTree run.tree, .ok run⟩ := by
  unfold launch at h
  simp only [start, h]
  rfl

theorem goes_compileTo_of_collect {world left : World} {run : ToolRun}
    {result : Except ShaderError Bytes}
    (hlaunch : self.launch world.tools world.cwd world.tree entry output = .ok run)
    (hsuccess : run.status.isSuccess = true)
    (hcollect : (collect entry output run.status).Goes (world.withTree run.tree) [] left result) :
    (self.compileTo entry output).Goes world [] left result := by
  refine Job.Goes.record rfl (Job.Goes.quiet_bind ⟨[], start_of_launch hlaunch, rfl⟩ ?_)
  rw [if_pos hsuccess]
  split
  · exact Job.Goes.record rfl hcollect
  · exact hcollect

/-- A tool that succeeds and leaves an output compiles its entry. -/
theorem goes_compileTo {world : World} {run : ToolRun}
    (hlaunch : self.launch world.tools world.cwd world.tree entry output = .ok run)
    (hsuccess : run.status.isSuccess = true)
    (hbytes : run.tree.readBytes world.cwd output = .ok bytes) :
    (self.compileTo entry output).Goes world [] (world.withTree run.tree) (.ok bytes) :=
  goes_compileTo_of_collect hlaunch hsuccess ⟨[], by simp [collect, hbytes], rfl⟩

/-- How one start of the tool comes out: the world that is left, and the result. -/
inductive CompilesTo (tool : ExternalTool) (world : World) (entry output : Path) :
    World → Except ShaderError Bytes → Prop
  | unlaunched {reason : FileError}
      (hlaunch : tool.launch world.tools world.cwd world.tree entry output = .error reason) :
      CompilesTo tool world entry output world (.error (.launch tool.tool reason))
  | failed {run : ToolRun}
      (hlaunch : tool.launch world.tools world.cwd world.tree entry output = .ok run)
      (hfailed : ¬ run.status.isSuccess = true) :
      CompilesTo tool world entry output (world.withTree run.tree)
        (.error (.compilation entry run.status (words run.errors)))
  | unread {run : ToolRun} {reason : FileError}
      (hlaunch : tool.launch world.tools world.cwd world.tree entry output = .ok run)
      (hsuccess : run.status.isSuccess = true)
      (hread : run.tree.readBytes world.cwd output = .error reason) :
      CompilesTo tool world entry output (world.withTree run.tree)
        (.error
          (if reason.isMissing then .compilation entry run.status "compiler produced no output"
            else .read output reason))
  | done {run : ToolRun} {bytes : Bytes}
      (hlaunch : tool.launch world.tools world.cwd world.tree entry output = .ok run)
      (hsuccess : run.status.isSuccess = true)
      (hread : run.tree.readBytes world.cwd output = .ok bytes) :
      CompilesTo tool world entry output (world.withTree run.tree) (.ok bytes)

theorem compilesTo (self : ExternalTool) (world : World) (entry output : Path) :
    ∃ left result, (self.compileTo entry output).Goes world [] left result ∧
      self.CompilesTo world entry output left result := by
  cases hlaunch : self.launch world.tools world.cwd world.tree entry output with
  | error reason =>
    have hstart : self.start entry output world =
        ⟨[], world, .error (.launch self.tool reason)⟩ := by
      unfold launch at hlaunch
      simp only [start, hlaunch]
    exact ⟨_, _, Job.Goes.record rfl (Job.Goes.bind_error ⟨[], hstart, rfl⟩), .unlaunched hlaunch⟩
  | ok run =>
    by_cases hsuccess : run.status.isSuccess = true
    · cases hread : run.tree.readBytes world.cwd output with
      | error reason =>
        have hcollect : collect entry output run.status (world.withTree run.tree) =
            ⟨[], world.withTree run.tree,
            .error (if reason.isMissing then
              .compilation entry run.status "compiler produced no output"
              else .read output reason)⟩ := by
          simp only [collect, World.tree_withTree, World.cwd_withTree, hread]
        exact ⟨_, _, goes_compileTo_of_collect hlaunch hsuccess ⟨[], hcollect, rfl⟩,
          .unread hlaunch hsuccess hread⟩
      | ok bytes =>
        exact ⟨_, _, goes_compileTo hlaunch hsuccess hread, .done hlaunch hsuccess hread⟩
    · refine ⟨_, _, Job.Goes.record rfl (Job.Goes.quiet_bind ⟨[], start_of_launch hlaunch, rfl⟩ ?_),
        .failed hlaunch hsuccess⟩
      rw [if_neg hsuccess]
      exact ⟨[], rfl, rfl⟩

theorem exists_of_compileTo {world left : World}
    (h : (self.compileTo entry output).Goes world asked left (.ok bytes)) :
    ∃ run, self.launch world.tools world.cwd world.tree entry output = .ok run ∧
      run.status.isSuccess = true ∧
      run.tree.readBytes world.cwd output = .ok bytes ∧ left = world.withTree run.tree := by
  obtain ⟨left', result, hgoes, hcompiles⟩ := self.compilesTo world entry output
  obtain ⟨-, rfl, rfl⟩ := h.unique hgoes
  cases hcompiles with
  | done hlaunch hsuccess hread => exact ⟨_, hlaunch, hsuccess, hread, rfl⟩

/-! ## One compilation -/

theorem outputName_of_siblings {p q : Path} (h : Scratch.Siblings p q) :
    outputName q = outputName p := by
  simp only [outputName, Path.fileStem, h.fileName]

/-- What a compilation has done: it has made a scratch directory, and the tool has written the
bytes under a name in it. -/
structure Compiled (tool : ExternalTool) (now : World) (entry : Path) (bytes : Bytes)
    (parent : Path) (above : Place) (n : Scratch.Name) (below : String) (run : ToolRun) : Prop where
  chosen : Scratch.parent now tool.scratch = .ok parent
  isParent : Scratch.Parent now parent above
  opened : Scratch.Opened now tool.scratch (parent.child n.text) (above ++ [n.text])
  isName : Component.IsName below
  output : outputName entry = ⟨below⟩
  launched : tool.launch now.tools now.cwd (Scratch.inside now (above ++ [n.text])) entry
    ((parent.child n.text).child below) = .ok run
  success : run.status.isSuccess = true
  wrote : (Scratch.inside now (above ++ [n.text])).writeBytes now.cwd
    ((parent.child n.text).child below) bytes = .ok run.tree

section Scratch

variable {path : Path} {place : Place} {below : String} {run : ToolRun}

/-- Such a tool changes nothing outside of the scratch directory that its output is in. -/
theorem WritesOutputOnly.get?_of_launch (h : self.WritesOutputOnly now.tools now.cwd)
    (hclosed : now.tree.IsClosed) (hopened : Scratch.Opened now self.scratch path place)
    (hbelow : Component.IsName below)
    (hlaunch : self.launch now.tools now.cwd (Scratch.inside now place) entry (path.child below) =
      .ok run) {spot : Place}
    (hspot : ¬ place <+: spot) : run.tree.get? spot = now.tree.get? spot := by
  rcases h.frame (hopened.isClosed_inside hclosed) hlaunch with hsame | ⟨content, hwrite⟩
  · rw [hsame, Scratch.Opened.get?_inside_of_not_prefix hspot]
  · exact hopened.get?_written hclosed hbelow hwrite hspot

/-- If anything can be read from its output afterwards, the tool has written that. -/
theorem WritesOutputOnly.writeBytes_of_launch (h : self.WritesOutputOnly now.tools now.cwd)
    (hclosed : now.tree.IsClosed) (hopened : Scratch.Opened now self.scratch path place)
    (hbelow : Component.IsName below)
    (hlaunch : self.launch now.tools now.cwd (Scratch.inside now place) entry
      (path.child below) = .ok run)
    (hbytes : run.tree.readBytes now.cwd (path.child below) = .ok bytes) :
    (Scratch.inside now place).writeBytes now.cwd (path.child below) bytes = .ok run.tree := by
  rcases h.frame (hopened.isClosed_inside hclosed) hlaunch with hsame | ⟨content, hwrite⟩
  · rw [hsame] at hbytes
    exact absurd hbytes (hopened.readBytes_inside hclosed hbelow)
  · rw [hopened.readBytes_written hclosed hbelow hwrite] at hbytes
    cases hbytes
    exact hwrite

/-- It has no output if it is told to write to the scratch directory itself or to the one above. -/
theorem WritesOutputOnly.readBytes_of_dotted (h : self.WritesOutputOnly now.tools now.cwd)
    (hclosed : now.tree.IsClosed) (hopened : Scratch.Opened now self.scratch path place)
    (hdotted : IsDotted (route output).2)
    (hlaunch : self.launch now.tools now.cwd (Scratch.inside now place) entry output = .ok run) :
    run.tree.readBytes now.cwd output ≠ .ok bytes := by
  have hinside := hopened.isClosed_inside hclosed
  rcases h.frame hinside hlaunch with hsame | ⟨content, hwrite⟩
  · rw [hsame]
    exact hinside.readBytes_of_dotted hdotted
  · obtain ⟨reason, hrefused⟩ := hinside.writeBytes_of_dotted hdotted now.cwd content
    cases hwrite.symm.trans hrefused

end Scratch

theorem WritesOutputOnly.exists_compiled (h : self.WritesOutputOnly now.tools now.cwd)
    (hclosed : now.tree.IsClosed)
    (hgoes : (self.compiler.compile entry).Goes now asked next (.ok bytes)) :
    ∃ parent above n below run, self.Compiled now entry bytes parent above n below run ∧
      next = now.withTree (run.tree.clear (above ++ [n.text])) := by
  rcases Scratch.within_cases hclosed self.scratch (fun directory => self.compileTo entry
      (directory.join (outputName entry))) with ⟨reason, hwithin⟩ | ⟨path, place, hopened, hwithin⟩
  · have hfailed : (self.compiler.compile entry).Goes now [] now (.error (.scratch reason)) :=
      ⟨[], hwithin, rfl⟩
    cases (hgoes.unique hfailed).2.2
  obtain ⟨more, left, result, hcompile⟩ :=
    (self.compileTo entry (path.join (outputName entry))).exists_goes
    (now.withTree (Scratch.inside now place))
  obtain ⟨events, heq, hasked⟩ := hcompile
  have hdone : (self.compiler.compile entry).Goes now more
      (left.withTree (left.tree.clear place)) result :=
    ⟨events, hwithin _ _ _ heq, hasked⟩
  obtain ⟨-, rfl, rfl⟩ := hgoes.unique hdone
  obtain ⟨run, hlaunch, hsuccess, hbytes, rfl⟩ := exists_of_compileTo ⟨events, heq, hasked⟩
  obtain ⟨parent, above, n, hchosen, hparent, rfl, rfl⟩ := hopened.exists_parent
  have hdotted (dots : Path) (hname : dots.fileName = none)
      (houtput : outputName entry = dots) : False := by
    rw [houtput] at hlaunch hbytes
    exact h.readBytes_of_dotted hclosed hopened (Path.isDotted_of_fileName hname _) hlaunch hbytes
  rcases outputName_cases entry with ⟨-, below, hbelow, houtput⟩ | ⟨-, houtput | houtput⟩
  · rw [houtput] at hlaunch hbytes
    exact ⟨parent, above, n, below, run,
      ⟨hchosen, hparent, hopened, hbelow, houtput, hlaunch, hsuccess,
      h.writeBytes_of_launch hclosed hopened hbelow hlaunch hbytes⟩, rfl⟩
  · exact (hdotted _ (by decide +kernel) houtput).elim
  · exact (hdotted _ (by decide +kernel) houtput).elim

theorem WritesOutputOnly.compile_alike (h : self.WritesOutputOnly now.tools now.cwd)
    (hclosed : now.tree.IsClosed)
    (hgoes : (self.compiler.compile entry).Goes now asked next (.ok bytes)) : now.Alike next := by
  obtain ⟨parent, above, n, below, run, hcompiled, rfl⟩ := h.exists_compiled hclosed hgoes
  exact ⟨_, hcompiled.opened.alike_clear hclosed fun spot =>
    h.get?_of_launch hclosed hcompiled.opened hcompiled.isName hcompiled.launched, rfl⟩

/-- A compilation that finds a scratch directory, and in which the tool makes its output there. -/
theorem WritesOutputOnly.goes_compile (h : self.WritesOutputOnly now.tools now.cwd)
    (hclosed : now.tree.IsClosed) {path : Path} {place : Place} {below : String} {run : ToolRun}
    (hopened : Scratch.Opened now self.scratch path place)
    (hmake : Scratch.make self.scratch now =
      ⟨[], now.withTree (Scratch.inside now place), .ok (path, place)⟩)
    (hbelow : Component.IsName below) (houtput : outputName entry = ⟨below⟩)
    (hlaunch : self.launch now.tools now.cwd (Scratch.inside now place) entry
      (path.child below) = .ok run)
    (hsuccess : run.status.isSuccess = true)
    (hbytes : run.tree.readBytes now.cwd (path.child below) = .ok bytes) :
    ∃ next, (self.compiler.compile entry).Goes now [] next (.ok bytes) ∧ now.Alike next := by
  obtain ⟨events, heq, hasked⟩ : (self.compileTo entry (path.child below)).Goes
      (now.withTree (Scratch.inside now place)) [] _ (.ok bytes) :=
        goes_compileTo hlaunch hsuccess hbytes
  rw [← show path.join (outputName entry) = path.child below by rw [houtput]; rfl] at heq
  refine ⟨now.withTree (run.tree.clear place),
    ⟨events, compile_of_make self hmake heq, hasked⟩, _, ?_, rfl⟩
  exact hopened.alike_clear hclosed fun spot => h.get?_of_launch hclosed hopened hbelow hlaunch

/-! ## The same compilation in a later tree -/

/-- What is given to a compilation is given again in another tree: the entry, under its name, leads
to the same; the inputs are the same, none of them in a scratch directory; and there is a parent for
another scratch directory. -/
structure GivenAgain (tool : ExternalTool) (now : World) (inputs : Set Place)
    (entry : Path) (parent : Path) (later : FileTree) (entry' : Path) (above : Place) : Prop where
  closed : later.IsClosed
  siblings : Scratch.Siblings entry entry'
  sameEntry : ∃ spot spot' found, now.tree.look now.cwd entry = .ok (spot, found) ∧
    later.look now.cwd entry' = .ok (spot', found)
  sameInputs : ∀ place ∈ inputs, later.get? place = now.tree.get? place
  apart : ∀ place ∈ inputs, ∀ n : Scratch.Name, n.text ∉ place
  chosen : Scratch.parent (now.withTree later) tool.scratch = .ok parent
  isParent : Scratch.Parent (now.withTree later) parent above
  draws : Scratch.DrawsFree now.tools
  room : ∃ n : Scratch.Name, later.get? (above ++ [n.text]) = none

section Again

variable {later : FileTree} {entry' parent : Path} {above above' : Place} {n : Scratch.Name}
  {below : String} {run : ToolRun}

theorem IsDeterministic.compile_again (h : self.IsDeterministic now.tools now.cwd inputs)
    (hclosed : now.tree.IsClosed)
    (hcompiled : self.Compiled now entry bytes parent above n below run)
    (hgiven : self.GivenAgain now inputs entry parent later entry' above') :
    ∃ asked next, (self.compiler.compile entry').Goes (now.withTree later) asked next (.ok bytes) ∧
      (now.withTree later).Alike next := by
  obtain ⟨m, hopened, hmake⟩ :=
    hgiven.isParent.make hgiven.closed hgiven.draws hgiven.room hgiven.chosen
  obtain ⟨written, hwrite⟩ :=
    hcompiled.opened.exists_written hclosed hopened hgiven.closed hcompiled.isName hcompiled.wrote
  have hkept := hopened.readBytes_written hgiven.closed hcompiled.isName hwrite
  have hentry : ∀ content,
      (Scratch.inside now (above ++ [n.text])).readBytes now.cwd entry = .ok content →
      (Scratch.inside (now.withTree later) (above' ++ [m.text])).readBytes now.cwd entry' =
        .ok content := by
    obtain ⟨spot, spot', found, hlook, hlook'⟩ := hgiven.sameEntry
    intro content hread
    rw [← hread]
    exact readBytes_congr (hcompiled.opened.look_inside hlook) (hopened.look_inside hlook')
  have hinputs : ∀ place ∈ inputs,
      (Scratch.inside (now.withTree later) (above' ++ [m.text])).get? place =
      (Scratch.inside now (above ++ [n.text])).get? place := by
    intro place hplace
    have hne (above : Place) (k : Scratch.Name) : place ≠ above ++ [k.text] := by
      rintro rfl
      exact hgiven.apart _ hplace k (by simp)
    rw [get?_put_of_ne _ _ (hne _ _), get?_put_of_ne _ _ (hne _ _)]
    exact hgiven.sameInputs place hplace
  obtain ⟨run', hlaunch, hsuccess, hbytes⟩ := h.again (hcompiled.opened.isClosed_inside hclosed)
    (hopened.isClosed_inside hgiven.closed) hgiven.siblings (.moved parent n m hcompiled.isName)
    (fun old => hcompiled.opened.readBytes_inside hclosed hcompiled.isName)
    hcompiled.launched hcompiled.success
    (hcompiled.opened.readBytes_written hclosed hcompiled.isName hcompiled.wrote) hentry hinputs
    ⟨written, hwrite, hkept⟩
  have houtput : outputName entry' = ⟨below⟩ :=
    (outputName_of_siblings hgiven.siblings).trans hcompiled.output
  have hlater : self.WritesOutputOnly (now.withTree later).tools (now.withTree later).cwd :=
    h.writesOutputOnly
  obtain ⟨next, hcompile, halike⟩ :=
    hlater.goes_compile hgiven.closed hopened hmake hcompiled.isName houtput hlaunch hsuccess hbytes
  exact ⟨[], next, hcompile, halike⟩

end Again

end ExternalTool

end ShaderEmbed
