import ShaderEmbed.Compile.External
import ShaderEmbed.Proofs.Compile.Room
import ShaderEmbed.Proofs.Path.Extension
import ShaderEmbed.Proofs.Run.InMemory

/-!
# Where a tool is told to write

A tool writes its output under a name of its own in a scratch directory, unless the name of the
entry starts with two dots and has at most one more (`ExternalTool.Misnames`): then the stem that
the output is named after is no name, and the output is the scratch directory itself or the
directory above it (`outputName_cases`). A scratch copy has the name of the entry; an entry that
ends in no name cannot be copied at all, even where the fragment it leads to can be flattened.
-/

namespace ShaderEmbed

open FileTree

namespace ExternalTool

/-- The output for an entry is not named: the name of the entry starts with two dots and has at most
one more. -/
def Misnames (entry : Path) : Prop :=
  ∃ name rest, entry.fileName = some name ∧ name.toList = '.' :: '.' :: rest ∧ rest.count '.' ≤ 1

/-! ## The name of the output -/

theorem isName_bin {s : List Char} (hslash : '/' ∉ s) :
    Component.IsName (String.ofList s ++ "." ++ "bin") := by
  have hspelled : String.ofList s ++ "." ++ "bin" = String.ofList (s ++ ['.', 'b', 'i', 'n']) := by
    simp [← String.toList_inj]
  rw [hspelled, Path.isName_ofList_iff]
  have hlength : (s ++ ['.', 'b', 'i', 'n']).length = s.length + 4 := by simp
  refine ⟨?_, ?_, ?_, by simpa using hslash⟩ <;>
  · intro heq
    rw [heq] at hlength
    simp only [List.length_cons, List.length_nil] at hlength
    omega

/-- The output for an entry whose name is taken apart at a dot. -/
theorem outputName_dot {entry : Path} {name : String} (hname : entry.fileName = some name)
    {front behind : List Char} (hsplit : name.toList = front ++ '.' :: behind)
    (hbehind : '.' ∉ behind) (hfront : front ≠ []) :
    outputName entry = (Path.mk (String.ofList front)).withExtension "bin" := by
  have hdots := (Path.isName_of_fileName hname).2.2.1
  simp [outputName, Path.fileStem, hname, Path.splitExtension_dot hsplit hbehind hfront hdots]

theorem outputName_whole {entry : Path} {name : String} (hname : entry.fileName = some name)
    (h : Path.IsWhole name) :
    outputName entry = ⟨name ++ "." ++ "bin"⟩ := by
  simp [outputName, Path.fileStem, hname, Path.splitExtension_of_whole h,
    Path.withExtension_of_whole (Path.isName_of_fileName hname) h]

/-- Two dots in front of a list that is put together are two dots in front of its first part, if
that is long enough. -/
theorem two_dots_of_append {front back rest : List Char} (h : front ++ back = '.' :: '.' :: rest)
    (hfront : front ≠ []) (hdot : front ≠ ['.']) :
    ∃ more, front = '.' :: '.' :: more ∧ rest = more ++ back := by
  obtain ⟨c, front, rfl⟩ := List.exists_cons_of_ne_nil hfront
  rw [List.cons_append, List.cons_eq_cons] at h
  obtain ⟨rfl, h⟩ := h
  obtain ⟨d, front, rfl⟩ := List.exists_cons_of_ne_nil fun hnil : front = [] => hdot (by rw [hnil])
  rw [List.cons_append, List.cons_eq_cons] at h
  obtain ⟨rfl, h⟩ := h
  exact ⟨front, rfl, h.symm⟩

theorem not_two_dots_of_whole {name : String} (h : Path.IsWhole name) (rest : List Char) :
    name.toList ≠ '.' :: '.' :: rest := by
  intro hdots
  rcases h with hdot | ⟨behind, hname, hbehind⟩
  · exact hdot (by simp [hdots])
  · rw [hname, List.cons_eq_cons] at hdots
    exact hbehind (by simp [hdots.2])

/-- The output for an entry has a name, or the entry misnames it: then it is the directory itself,
or the one above. -/
theorem outputName_cases (entry : Path) :
    (¬ Misnames entry ∧ ∃ name, Component.IsName name ∧ outputName entry = ⟨name⟩) ∨
      Misnames entry ∧ (outputName entry = ⟨"."⟩ ∨ outputName entry = ⟨".."⟩) := by
  cases hname : entry.fileName with
  | none =>
    have hmisnames : ¬ Misnames entry := by
      rintro ⟨name, rest, hsome, -⟩
      rw [hname] at hsome
      cases hsome
    have houtput : outputName entry = ⟨"shader.bin"⟩ := by
      have hstem : entry.fileStem = none := by simp [Path.fileStem, hname]
      rw [outputName, hstem]
      decide +kernel
    exact Or.inl ⟨hmisnames, "shader.bin", ⟨by decide, by decide, by decide, by decide⟩, houtput⟩
  | some name =>
    have hslash := (Path.isName_of_fileName hname).2.2.2
    have hmisnames : Misnames entry ↔ ∃ rest, name.toList = '.' :: '.' :: rest ∧
        rest.count '.' ≤ 1 := by
      simp [Misnames, hname]
    rw [hmisnames]
    rcases Path.whole_or_dot name with hwhole | ⟨front, behind, hsplit, hbehind, hfront⟩
    · refine Or.inl ⟨?_, _, by simpa using isName_bin hslash, outputName_whole hname hwhole⟩
      rintro ⟨rest, hrest, -⟩
      exact not_two_dots_of_whole hwhole rest hrest
    have hcount : behind.count '.' = 0 := List.count_eq_zero.mpr hbehind
    have hslash' : '/' ∉ front := fun hmem => hslash (by simp [hsplit, hmem])
    rw [outputName_dot hname hsplit hbehind hfront, hsplit]
    by_cases hdot : front = ['.']
    · subst hdot
      exact Or.inr ⟨⟨behind, rfl, by omega⟩,
        Or.inl (Path.withExtension_of_not_isName (by decide) _)⟩
    by_cases hdots : front = ['.', '.']
    · subst hdots
      exact Or.inr ⟨⟨'.' :: behind, rfl, by simp [hcount]⟩,
        Or.inr (Path.withExtension_of_not_isName (by decide) _)⟩
    -- the stem is a name, and its own extension is taken off in turn
    have hstem : Component.IsName (String.ofList front) :=
      Path.isName_ofList_iff.mpr ⟨hfront, hdot, hdots, hslash'⟩
    rcases Path.whole_or_dot (String.ofList front) with
      hwhole | ⟨front', behind', hsplit', hbehind', hfront'⟩
    · refine Or.inl ⟨?_, _, isName_bin hslash', Path.withExtension_of_whole hstem hwhole _⟩
      rintro ⟨rest, hrest, -⟩
      obtain ⟨more, hmore, -⟩ := two_dots_of_append hrest hfront hdot
      exact not_two_dots_of_whole hwhole more (by rw [String.toList_ofList, hmore])
    · rw [Path.withExtension_dot hstem hsplit' hbehind' hfront']
      rw [String.toList_ofList] at hsplit'
      have hcount' : behind'.count '.' = 0 := List.count_eq_zero.mpr hbehind'
      by_cases hdot' : front' = ['.']
      · subst hdot'
        refine Or.inr ⟨⟨behind' ++ '.' :: behind, by simp [hsplit'], by simp [hcount, hcount']⟩,
          Or.inr (if_pos rfl)⟩
      · have hslash'' : '/' ∉ front' := fun hmem => hslash' (by simp [hsplit', hmem])
        rw [if_neg hdot']
        refine Or.inl ⟨?_, _, isName_bin hslash'', rfl⟩
        rintro ⟨rest, hrest, hfew⟩
        rw [hsplit', List.append_assoc] at hrest
        obtain ⟨more, -, rfl⟩ := two_dots_of_append hrest hfront' hdot'
        simp only [List.cons_append, List.count_append, List.count_cons_self] at hfew
        omega

/-! ## What a compilation records -/

/-- A compilation starts the tool once, and records nothing else but its warnings. -/
theorem events_compileTo (self : ExternalTool) (entry output : Path) (world : World) :
    ∃ warnings, (self.compileTo entry output world).events =
      .launched self.tool entry output :: warnings ∧
      ∀ event ∈ warnings, ∃ words, event = .warned self.tool entry words := by
  unfold compileTo
  rw [Job.record_bind]
  refine ⟨_, rfl, ?_⟩
  cases hstart : world.tools.start self.tool (self.arguments ++ [entry.text, "-o", output.text])
    world.cwd world.tree with
  | error reason =>
    have hfailed : self.start entry output world =
        ⟨[], world, .error (.launch self.tool reason)⟩ := by
      simp only [start, hstart]
    rw [Job.bind_of_error hfailed]
    simp
  | ok run =>
    have hstarted : self.start entry output world = ⟨[], world.withTree run.tree, .ok run⟩ := by
      simp only [start, hstart]
      rfl
    rw [Job.bind_of_ok hstarted]
    have hcollect (left : World) : (collect entry output run.status left).events = [] := by
      unfold collect
      split <;> rfl
    by_cases hsuccess : run.status.isSuccess = true
    · by_cases hwords : words run.errors ≠ ""
      · simp [hsuccess, hwords, Job.record_bind, hcollect]
      · simp [hsuccess, hwords, hcollect]
    · simp [hsuccess, Job.fail]

variable {world : World}

theorem compile_of_make (self : ExternalTool) {entry directory : Path}
    {place : Place} {opened left : World} {events : List Event} {result : Except ShaderError Bytes}
    (hmake : Scratch.make self.scratch world = ⟨[], opened, .ok (directory, place)⟩)
    (hcompile : self.compileTo entry (directory.join (outputName entry)) opened =
      ⟨events, left, result⟩) :
    self.compiler.compile entry world =
      ⟨events, left.withTree (left.tree.clear place), result⟩ := by
  change Scratch.within self.scratch
    (fun directory => self.compileTo entry (directory.join (outputName entry))) world = _
  refine Scratch.within_of_make hmake ?_
  exact hcompile

theorem launched_of_make (self : ExternalTool) {directory : Path} {place : Place} {opened : World}
    (hmake : Scratch.make self.scratch world = ⟨[], opened, .ok (directory, place)⟩)
    (entry : Path) :
    .launched self.tool entry (directory.join (outputName entry)) ∈
      (self.compiler.compile entry world).events := by
  obtain ⟨warnings, hevents, -⟩ :=
    self.events_compileTo entry (directory.join (outputName entry)) opened
  cases hcompile : self.compileTo entry (directory.join (outputName entry)) opened with
  | mk events left result =>
    rw [hcompile] at hevents
    rw [self.compile_of_make hmake hcompile]
    exact hevents ▸ List.mem_cons_self

/-- A compilation is not begun, or starts the tool with an output in a scratch directory. -/
theorem events_compile (self : ExternalTool) (hclosed : world.tree.IsClosed) (entry : Path) :
    (self.compiler.compile entry world).events = [] ∨
      ∃ directory place warnings, Scratch.Opened world self.scratch directory place ∧
        (self.compiler.compile entry world).events =
          .launched self.tool entry (directory.join (outputName entry)) :: warnings ∧
        ∀ event ∈ warnings, ∃ words, event = .warned self.tool entry words := by
  rcases Scratch.within_cases hclosed self.scratch (fun directory => self.compileTo entry
      (directory.join (outputName entry))) with
        ⟨reason, hwithin⟩ | ⟨directory, place, hopened, hwithin⟩
  · exact Or.inl (congrArg Outcome.events hwithin)
  · obtain ⟨warnings, hevents, hwarnings⟩ := self.events_compileTo entry
      (directory.join (outputName entry)) (world.withTree (Scratch.inside world place))
    cases hcompile : self.compileTo entry (directory.join (outputName entry))
        (world.withTree (Scratch.inside world place)) with
    | mk events left result =>
      rw [hcompile] at hevents
      refine Or.inr ⟨directory, place, warnings, hopened, ?_, hwarnings⟩
      exact (congrArg Outcome.events (hwithin _ _ _ hcompile)).trans hevents

theorem exists_opened_of_launched (self : ExternalTool) (hclosed : world.tree.IsClosed)
    {entry started given output : Path}
    (hmem : .launched started given output ∈ (self.compiler.compile entry world).events) :
    ∃ directory place, Scratch.Opened world self.scratch directory place ∧
      output = directory.join (outputName entry) := by
  rcases self.events_compile hclosed entry with
    hnone | ⟨directory, place, warnings, hopened, hevents, hwarnings⟩
  · rw [hnone] at hmem
    cases hmem
  · rw [hevents] at hmem
    refine ⟨directory, place, hopened, ?_⟩
    rcases List.mem_cons.mp hmem with heq | hwarned
    · cases heq
      rfl
    · obtain ⟨words, heq⟩ := hwarnings _ hwarned
      cases heq

theorem asked_compile (self : ExternalTool) (hclosed : world.tree.IsClosed) (entry : Path) :
    (self.compiler.compile entry world).asked = [] := by
  unfold Outcome.asked
  rcases self.events_compile hclosed entry with
    hnone | ⟨directory, place, warnings, -, hevents, hwarnings⟩
  · rw [hnone]
    rfl
  · rw [hevents, List.filterMap_eq_nil_iff]
    intro event hevent
    rcases List.mem_cons.mp hevent with rfl | hwarned
    · rfl
    · obtain ⟨words, rfl⟩ := hwarnings event hwarned
      rfl

/-- Nothing else is asked for when a tool is asked for an entry. -/
theorem goes_ask (self : ExternalTool) (hclosed : world.tree.IsClosed) (entry : Path) :
    (self.compiler.ask entry).Goes world [entry] (self.compiler.compile entry world).world
      (self.compiler.compile entry world).result :=
  Compiler.goes_ask ⟨_, rfl, self.asked_compile hclosed entry⟩

end ExternalTool

def Pipeline.withTool (self : Pipeline) (tool : ExternalTool) : Pipeline :=
  { self with compiler := tool.compiler }

namespace ExternalTool

/-- The paths that a compiler is handed for an entry. The output lies directly in a scratch
directory under a name of its own, unless the entry misnames it; a copy lies directly in one under
the name of the normalized entry; and an entry that ends in no name is not copied, and fails. Where
a scratch directory is made, the compiler is handed its output indeed, and it is asked once for a
copy that has the name of the entry and holds the text, if the name fits there. -/
structure HandedInScratch (tool : ExternalTool) (pipeline : Pipeline) (world : World)
    (entry : Path) (text : String) :
    Prop where
  output : ∀ started given output, .launched started given output ∈
    (tool.compiler.compile entry world).events →
    ∃ directory place, Scratch.Opened world tool.scratch directory place ∧
      ((¬ Misnames entry ∧ ∃ name, Component.IsName name ∧ output = directory.child name) ∨
        Misnames entry ∧ (output = directory.child "." ∨ output = directory.child ".."))
  started : ∀ directory place opened, Scratch.make tool.scratch world =
    ⟨[], opened, .ok (directory, place)⟩ →
    .launched tool.tool entry (directory.join (outputName entry)) ∈
      (tool.compiler.compile entry world).events
  copy : ∀ copy ∈ ((pipeline.withTool tool).compileFlattened entry text world).asked,
    ∃ directory place name, Scratch.Opened world pipeline.scratch directory place ∧
      Component.IsName name ∧
      entry.normalize.fileName = some name ∧ copy = directory.child name
  copied : ∀ directory place opened name, Scratch.make pipeline.scratch world =
    ⟨[], opened, .ok (directory, place)⟩ →
    entry.fileName = some name → IsSpellable (directory.child name) →
    name.utf8ByteSize ≤ nameLimit →
      entry.normalize.fileName = some name ∧
      ((pipeline.withTool tool).compileFlattened entry text world).asked = [directory.child name] ∧
      ∃ copied, opened.tree.writeBytes opened.cwd (directory.child name)
        (Text.encode text) = .ok copied ∧
        copied.readBytes opened.cwd (directory.child name) = .ok (Text.encode text) ∧
        ((pipeline.withTool tool).compileFlattened entry text world).result =
          (tool.compiler.compile (directory.child name) (opened.withTree copied)).result
  uncopied : entry.fileName = none →
    ((pipeline.withTool tool).compileFlattened entry text world).asked = [] ∧
      ∃ reason, ((pipeline.withTool tool).compileFlattened entry text world).result =
        .error (.scratch reason)

/-- What a compiler is handed stays in the scratch directory, but for the output of an entry that
misnames it. -/
theorem handed_in_scratch (tool : ExternalTool) (pipeline : Pipeline) {world : World}
    (hclosed : world.tree.IsClosed) (entry : Path) (text : String) :
    HandedInScratch tool pipeline world entry text where
  output started given output hmem := by
    obtain ⟨directory, place, hopened, heq⟩ := tool.exists_opened_of_launched hclosed hmem
    refine ⟨directory, place, hopened, ?_⟩
    rcases outputName_cases entry with
      ⟨hnamed, name, hname, houtput⟩ | ⟨hmisnamed, houtput | houtput⟩
    · exact Or.inl ⟨hnamed, name, hname, by rw [heq, houtput]; rfl⟩
    · exact Or.inr ⟨hmisnamed, Or.inl (by rw [heq, houtput]; rfl)⟩
    · exact Or.inr ⟨hmisnamed, Or.inr (by rw [heq, houtput]; rfl)⟩
  started directory place opened hmake := tool.launched_of_make hmake entry
  copy copy hcopy := by
    rcases (pipeline.withTool tool).compileFlattened_cases hclosed entry text with
      ⟨left, reason, -, events, heq, hasked⟩ |
      ⟨directory, place, file, later, hopened, hfile, hwrite, hcompile⟩
    · rw [heq] at hcopy
      rw [Outcome.asked, hasked] at hcopy
      cases hcopy
    · have hname := Path.isName_of_fileName hfile
      have hlater : (world.withTree later).tree.IsClosed :=
        hopened.isClosed_written hclosed hname hwrite
      obtain ⟨events, heq, hasked⟩ := hcompile _ _ _ (tool.goes_ask hlater (directory.child file))
      rw [heq] at hcopy
      rw [Outcome.asked, hasked, List.mem_singleton] at hcopy
      exact ⟨directory, place, file, hopened, hname, Path.fileName_normalize hfile, hcopy⟩
  copied directory place opened name hmake hname hspellable hshort := by
    obtain ⟨copied, hwrite, hread, hcopied, hcompile⟩ :=
      (pipeline.withTool tool).exists_copy hclosed hmake hname hspellable hshort text
    obtain ⟨events, heq, hasked⟩ := hcompile _ _ _ (tool.goes_ask hcopied (directory.child name))
    rw [heq]
    exact ⟨Path.fileName_normalize hname, hasked, copied, hwrite, hread, rfl⟩
  uncopied hnone := by
    obtain ⟨left, reason, events, heq, hasked⟩ :=
      (pipeline.withTool tool).compileFlattened_of_fileName hclosed hnone text
    rw [heq]
    exact ⟨hasked, reason, rfl⟩

/-! ## Examples -/

/-- A tool that is not installed, with its scratch directories at the root. -/
def absentTool : ExternalTool := ⟨⟨"glslc"⟩, [], some ⟨"/"⟩⟩

def emptyWorld : World := ⟨.empty, [], ⟨"/tmp"⟩, .none, none⟩

/-- A pipeline with its scratch directories at the root, too. -/
def rootedPipeline : Pipeline := { Pipeline.plainPipeline with scratch := some ⟨"/"⟩ }

/-- There the tool is told to write to a name of its own, and is asked for a copy. -/
theorem handed_in_scratch_empty :
    emptyWorld.tree.IsClosed ∧
    HandedInScratch absentTool rootedPipeline emptyWorld ⟨"a.vert.glsl"⟩ "" ∧
      ∃ directory : Path,
        .launched ⟨"glslc"⟩ ⟨"a.vert.glsl"⟩ (directory.child "a.bin") ∈
          (absentTool.compiler.compile ⟨"a.vert.glsl"⟩ emptyWorld).events ∧
        ((rootedPipeline.withTool absentTool).compileFlattened
          ⟨"a.vert.glsl"⟩ "" emptyWorld).asked = [directory.child "a.vert.glsl"] := by
  have hclosed : emptyWorld.tree.IsClosed := isClosed_empty
  have hhanded := handed_in_scratch absentTool rootedPipeline hclosed ⟨"a.vert.glsl"⟩ ""
  obtain ⟨n, hopened, hmake⟩ := (Scratch.parent_root emptyWorld).make hclosed
    (Scratch.drawsFree_of_counted rfl)
    ⟨Scratch.numbered 0, rfl⟩
    (show Scratch.parent emptyWorld absentTool.scratch = .ok ⟨"/"⟩ from rfl)
  have houtput : outputName ⟨"a.vert.glsl"⟩ = ⟨"a.bin"⟩ := by decide +kernel
  have hlaunched := hhanded.started _ _ _ hmake
  rw [houtput] at hlaunched
  have hname : Path.fileName ⟨"a.vert.glsl"⟩ = some "a.vert.glsl" := by decide +kernel
  have hfirst : IsSpellable (((Path.mk "/").child (Scratch.name 0)).child "a.vert.glsl") :=
    ⟨by decide +kernel, by decide +kernel, by decide +kernel⟩
  have hspellable := Scratch.isSpellable_child_child (Path.isName_of_fileName hname) hfirst n
  obtain ⟨-, hasked, -⟩ := hhanded.copied _ _ _ _ hmake hname hspellable (by decide)
  exact ⟨hclosed, hhanded, _, hlaunched, hasked⟩

/-- For an entry of three dots the tool is told to write to the directory above its scratch
directory; and an entry that leads to a fragment by a step upwards is flattened, and then not
compiled. -/
theorem handed_outside_scratch :
    (∃ directory : Path, .launched ⟨"glslc"⟩ ⟨"..."⟩ (directory.child "..") ∈
      (absentTool.compiler.compile ⟨"..."⟩ emptyWorld).events) ∧
    ∃ flat, (Pipeline.plainFragments.source.flatten Pipeline.plainPipeline.marker
      ⟨"a.glsl/x/.."⟩).result = .ok flat ∧
      ((Pipeline.plainPipeline.withTool absentTool).compileFlattened
        ⟨"a.glsl/x/.."⟩ flat.text emptyWorld).asked = [] ∧
      ∃ reason, ((Pipeline.plainPipeline.withTool absentTool).compileFlattened
        ⟨"a.glsl/x/.."⟩ flat.text emptyWorld).result = .error (.scratch reason) := by
  constructor
  · obtain ⟨n, hopened, hmake⟩ := (Scratch.parent_root emptyWorld).make isClosed_empty
      (Scratch.drawsFree_of_counted rfl) ⟨Scratch.numbered 0, rfl⟩
      (show Scratch.parent emptyWorld absentTool.scratch = .ok ⟨"/"⟩ from rfl)
    have houtput : ((Path.mk "/").child n.text).join (outputName ⟨"..."⟩) =
        ((Path.mk "/").child n.text).child ".." := by
      rw [show outputName ⟨"..."⟩ = ⟨".."⟩ by decide +kernel]
      rfl
    exact ⟨_, houtput ▸ absentTool.launched_of_make hmake ⟨"..."⟩⟩
  · have hnormal : (Path.mk "a.glsl/x/..").normalize = (Path.mk "a.glsl").normalize := by
      decide +kernel
    have hname : (Path.mk "a.glsl/x/..").fileName = none := by decide +kernel
    have hflat := Pipeline.flatten_plain
    rw [FragmentSource.flatten, ← hnormal] at hflat
    have hclosed : emptyWorld.tree.IsClosed := isClosed_empty
    obtain ⟨left, reason, events, heq, hasked⟩ :=
      (Pipeline.plainPipeline.withTool absentTool).compileFlattened_of_fileName
        hclosed hname Pipeline.plainText
    refine ⟨_, hflat, ?_⟩
    rw [heq]
    exact ⟨hasked, reason, rfl⟩

end ExternalTool

end ShaderEmbed
