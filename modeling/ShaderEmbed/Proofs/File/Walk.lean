import Mathlib.Logic.Relation
import ShaderEmbed.File.Walk

/-!
# Walking step by step

`FileTree.walk` is a recursion over the segments of a path; here it is a sequence of steps. A
`Stand` holds what a walk carries along: the links it may still pass, the place it has come to, and
the segments ahead. `Step` says what one step does, `Ends` where no step is left, and
`walk_eq_ok_iff` that a walk arrives where its steps end.

Two facts carry all that is said about paths later. A step that is possible in a tree is possible in
every tree that has grown from it (`Step.mono`), and a step does not depend on what lies far ahead
(`Step.before`), so that a walk over a longer path comes through where the walk over its beginning
arrived.
-/

namespace ShaderEmbed

namespace FileTree

/-! ## Steps -/

/-- A segment that names something, rather than to stay or to go up. -/
def IsPlain (segment : String) : Prop := segment ≠ "" ∧ segment ≠ "." ∧ segment ≠ ".."

/-- Where a walk stands: how many links it may still pass, the place it has come to, and the
segments ahead. -/
structure Stand where
  links : Nat
  here : Place
  ahead : List String

/-- A walk goes on through a name with given segments behind it: the name may be asked for, and is
not yet the end. -/
structure Passes (ending : Ending) (limit : Option Nat) (here : Place) (name : String)
    (rest : List String) : Prop where
  plain : IsPlain name
  sound : nameFault? ending limit (here ++ [name]) name rest = none
  onward : ending.isReached rest = false

/-- One step of a walk. -/
inductive Step (tree : FileTree) (ending : Ending) (limit : Option Nat) : Stand → Stand → Prop
  | stay {links : Nat} {here : Place} {segment : String} {rest : List String}
      (hhere : tree.get? here = some .directory) (hsegment : segment = "" ∨ segment = ".") :
      Step tree ending limit ⟨links, here, segment :: rest⟩ ⟨links, here, rest⟩
  | up {links : Nat} {here : Place} {rest : List String}
      (hhere : tree.get? here = some .directory) :
      Step tree ending limit ⟨links, here, ".." :: rest⟩ ⟨links, here.dropLast, rest⟩
  | follow {links : Nat} {here : Place} {name target : String} {rest : List String}
      (hhere : tree.get? here = some .directory) (hname : Passes ending limit here name rest)
      (hlink : tree.get? (here ++ [name]) = some (.link target)) :
      Step tree ending limit ⟨links + 1, here, name :: rest⟩
        ⟨links, if (route ⟨target⟩).1 then [] else here, (route ⟨target⟩).2 ++ rest⟩
  | into {links : Nat} {here : Place} {name : String} {rest : List String} {entry : Entry}
      (hhere : tree.get? here = some .directory) (hname : Passes ending limit here name rest)
      (hentry : tree.get? (here ++ [name]) = some entry) (hlink : ∀ target, entry ≠ .link target) :
      Step tree ending limit ⟨links, here, name :: rest⟩ ⟨links, here ++ [name], rest⟩

/-- Where a walk is over: no segment is ahead, nothing has the name that comes next, or that name is
the end. -/
inductive Ends (tree : FileTree) (ending : Ending) (limit : Option Nat) : Stand → Place → Prop
  | arrived {links : Nat} {here : Place} : Ends tree ending limit ⟨links, here, []⟩ here
  | missing {links : Nat} {here : Place} {name : String} {rest : List String}
      (hhere : tree.get? here = some .directory) (hplain : IsPlain name)
      (hsound : nameFault? ending limit (here ++ [name]) name rest = none)
      (hentry : tree.get? (here ++ [name]) = none) (hrest : ∀ segment ∈ rest, segment = "") :
      Ends tree ending limit ⟨links, here, name :: rest⟩ (here ++ [name])
  | reached {links : Nat} {here : Place} {name : String} {rest : List String} {entry : Entry}
      (hhere : tree.get? here = some .directory) (hplain : IsPlain name)
      (hsound : nameFault? ending limit (here ++ [name]) name rest = none)
      (hentry : tree.get? (here ++ [name]) = some entry) (hreached : ending.isReached rest = true) :
      Ends tree ending limit ⟨links, here, name :: rest⟩ (here ++ [name])

abbrev Steps (tree : FileTree) (ending : Ending) (limit : Option Nat) : Stand → Stand → Prop :=
  Relation.ReflTransGen (Step tree ending limit)

section Walks

variable {tree : FileTree} {ending : Ending} {limit : Option Nat}

theorem walk_of_step {s s' : Stand} (h : Step tree ending limit s s') :
    walk tree ending limit s.links s.here s.ahead =
      walk tree ending limit s'.links s'.here s'.ahead := by
  cases h with
  | stay hhere hsegment =>
    rw [walk]
    rcases hsegment with rfl | rfl <;> simp [hhere]
  | up hhere =>
    rw [walk]
    simp [hhere]
  | follow hhere hname hlink =>
    obtain ⟨⟨hempty, hdot, hdots⟩, hsound, honward⟩ := hname
    rw [walk]
    simp [hhere, hempty, hdot, hdots, hsound, honward, hlink]
  | @into links here name rest entry hhere hname hentry hlink =>
    obtain ⟨⟨hempty, hdot, hdots⟩, hsound, honward⟩ := hname
    rw [walk]
    cases entry with
    | link target => exact absurd rfl (hlink target)
    | directory => simp [hhere, hempty, hdot, hdots, hsound, honward, hentry]
    | file content runnable => simp [hhere, hempty, hdot, hdots, hsound, honward, hentry]
    | device kind => simp [hhere, hempty, hdot, hdots, hsound, honward, hentry]

theorem walk_of_ends {s : Stand} {place : Place} (h : Ends tree ending limit s place) :
    walk tree ending limit s.links s.here s.ahead = .ok place := by
  cases h with
  | arrived => simp [walk]
  | missing hhere hplain hsound hentry hrest =>
    obtain ⟨hempty, hdot, hdots⟩ := hplain
    unfold walk
    simpa [hhere, hempty, hdot, hdots, hsound, hentry] using hrest
  | @reached links here name rest entry hhere hplain hsound hentry hreached =>
    obtain ⟨hempty, hdot, hdots⟩ := hplain
    unfold walk
    cases entry <;> simp [hhere, hempty, hdot, hdots, hsound, hentry, hreached]

theorem walk_of_steps {s s' : Stand} (h : Steps tree ending limit s s') :
    walk tree ending limit s.links s.here s.ahead =
      walk tree ending limit s'.links s'.here s'.ahead := by
  induction h with
  | refl => rfl
  | tail _ hstep ih => exact ih.trans (walk_of_step hstep)

theorem isPlain_of_not_stay {segment : String} (hstay : ¬ (segment = "" || segment = ".") = true)
    (hup : ¬ segment = "..") : IsPlain segment := by
  simp only [Bool.or_eq_true, decide_eq_true_eq, not_or] at hstay
  exact ⟨hstay.1, hstay.2, hup⟩

/-- A step in front of steps that lead to an end. -/
theorem exists_steps_of_step {s s' : Stand} {place : Place} (hstep : Step tree ending limit s s')
    (h : ∃ last, Steps tree ending limit s' last ∧ Ends tree ending limit last place) :
    ∃ last, Steps tree ending limit s last ∧ Ends tree ending limit last place := by
  obtain ⟨last, hsteps, hends⟩ := h
  exact ⟨last, .head hstep hsteps, hends⟩

theorem exists_steps_of_walk {links : Nat} {here place : Place} {segments : List String}
    (h : walk tree ending limit links here segments = .ok place) :
    ∃ s, Steps tree ending limit ⟨links, here, segments⟩ s ∧ Ends tree ending limit s place := by
  fun_induction walk tree ending limit links here segments with
  | case1 links here =>
    cases h
    exact ⟨_, .refl, .arrived⟩
  | case2 => cases h
  | case3 links here segment rest hhere hstay ih =>
    exact exists_steps_of_step (.stay hhere (by simpa using hstay)) (ih h)
  | case4 links here rest hhere _ ih => exact exists_steps_of_step (.up hhere) (ih h)
  | case5 => cases h
  | case6 links here name rest hhere hstay hup hsound hentry hrest =>
    cases h
    exact ⟨_, .refl,
      .missing hhere (isPlain_of_not_stay hstay hup) hsound hentry (by simpa using hrest)⟩
  | case7 => cases h
  | case8 links here name rest hhere hstay hup hsound target hlink hreached =>
    cases h
    exact ⟨_, .refl, .reached hhere (isPlain_of_not_stay hstay hup) hsound hlink hreached⟩
  | case9 => cases h
  | case10 here name rest hhere hstay hup hsound target hlink honward links
    fromRoot segments hroute ih =>
    have hname : Passes ending limit here name rest :=
      ⟨isPlain_of_not_stay hstay hup, hsound, by simpa using honward⟩
    have hstep : Step tree ending limit ⟨links + 1, here, name :: rest⟩ _ :=
      .follow hhere hname hlink
    rw [hroute] at hstep
    exact exists_steps_of_step hstep (ih h)
  | case11 links here name rest hhere hstay hup hsound entry hlink hentry hreached =>
    cases h
    exact ⟨_, .refl, .reached hhere (isPlain_of_not_stay hstay hup) hsound hentry hreached⟩
  | case12 links here name rest hhere hstay hup hsound entry hlink hentry honward ih =>
    have hname : Passes ending limit here name rest :=
      ⟨isPlain_of_not_stay hstay hup, hsound, by simpa using honward⟩
    exact exists_steps_of_step (.into hhere hname hentry fun target ht => hlink target ht) (ih h)
  | case13 => cases h

theorem walk_eq_ok_iff {links : Nat} {here place : Place} {segments : List String} :
    walk tree ending limit links here segments = .ok place ↔
      ∃ s, Steps tree ending limit ⟨links, here, segments⟩ s ∧ Ends tree ending limit s place := by
  refine ⟨exists_steps_of_walk, ?_⟩
  rintro ⟨s, hsteps, hends⟩
  exact (walk_of_steps hsteps).trans (walk_of_ends hends)

theorem directory_of_walk_cons {links : Nat} {here place : Place}
    {segment : String} {rest : List String}
    (h : walk tree ending limit links here (segment :: rest) = .ok place) :
    tree.get? here = some .directory := by
  rw [walk] at h
  split at h
  · cases h
  · assumption
  · cases h

end Walks

/-! ## Trees that have grown -/

end FileTree

/-- What may become of an entry in a tree that grows: it stays, but for a file's content. -/
inductive Entry.Fits : Entry → Entry → Prop
  | same {entry : Entry} : Entry.Fits entry entry
  | file {before after : Bytes} {runnable runnable' : Bool} :
      Entry.Fits (.file before runnable) (.file after runnable')

namespace FileTree

/-- `later` has all that `tree` has; only files may have another content. -/
def Grows (tree later : FileTree) : Prop :=
  ∀ place entry, tree.get? place = some entry → ∃ now, later.get? place = some now ∧ entry.Fits now

theorem Grows.refl (tree : FileTree) : tree.Grows tree := fun _ entry h => ⟨entry, h, .same⟩

theorem Grows.trans {tree later last : FileTree} (h : tree.Grows later) (h' : later.Grows last) :
    tree.Grows last := by
  intro place entry hentry
  obtain ⟨now, hnow, hfits⟩ := h place entry hentry
  obtain ⟨then_, hthen, hfits'⟩ := h' place now hnow
  refine ⟨then_, hthen, ?_⟩
  cases hfits with
  | same => exact hfits'
  | file =>
    cases hfits' with
    | same => exact .file
    | file => exact .file

section Grown

variable {tree later : FileTree} {ending : Ending} {limit : Option Nat}

theorem Grows.directory (h : tree.Grows later) {place : Place}
    (hplace : tree.get? place = some .directory) :
    later.get? place = some .directory := by
  obtain ⟨now, hnow, hfits⟩ := h place _ hplace
  cases hfits
  exact hnow

theorem Grows.link (h : tree.Grows later) {place : Place} {target : String}
    (hplace : tree.get? place = some (.link target)) : later.get? place = some (.link target) := by
  obtain ⟨now, hnow, hfits⟩ := h place _ hplace
  cases hfits
  exact hnow

theorem Grows.notLink (h : tree.Grows later) {place : Place} {entry : Entry}
    (hplace : tree.get? place = some entry) (hlink : ∀ target, entry ≠ .link target) :
    ∃ now, later.get? place = some now ∧ ∀ target, now ≠ .link target := by
  obtain ⟨now, hnow, hfits⟩ := h place _ hplace
  refine ⟨now, hnow, ?_⟩
  cases hfits with
  | same => exact hlink
  | file => intro target ht; cases ht

theorem Step.mono (h : tree.Grows later) {s s' : Stand} (hstep : Step tree ending limit s s') :
    Step later ending limit s s' := by
  cases hstep with
  | stay hhere hsegment => exact .stay (h.directory hhere) hsegment
  | up hhere => exact .up (h.directory hhere)
  | follow hhere hname hlink => exact .follow (h.directory hhere) hname (h.link hlink)
  | into hhere hname hentry hlink =>
    obtain ⟨now, hnow, hlink'⟩ := h.notLink hentry hlink
    exact .into (h.directory hhere) hname hnow hlink'

theorem Steps.mono (h : tree.Grows later) {s s' : Stand} (hsteps : Steps tree ending limit s s') :
    Steps later ending limit s s' :=
  Relation.ReflTransGen.mono (fun _ _ => Step.mono h) _ _ hsteps

/-- What was found once is found in every tree that has grown from there. -/
theorem walk_of_grows (h : tree.Grows later) {links : Nat}
    {here place : Place} {segments : List String} {entry : Entry}
    (hwalk : walk tree ending limit links here segments = .ok place)
    (hentry : tree.get? place = some entry) :
    walk later ending limit links here segments = .ok place := by
  obtain ⟨s, hsteps, hends⟩ := walk_eq_ok_iff.mp hwalk
  refine walk_eq_ok_iff.mpr ⟨s, hsteps.mono h, ?_⟩
  obtain ⟨now, hnow, -⟩ := h place entry hentry
  cases hends with
  | arrived => exact .arrived
  | missing _ _ _ hnone _ =>
    rw [hnone] at hentry
    cases hentry
  | reached hhere hplain hsound _ hreached =>
    exact .reached (h.directory hhere) hplain hsound hnow hreached

end Grown

/-! ## Longer paths -/

theorem nameFault?_eq_none_iff {ending : Ending} {limit : Option Nat} {next : Place} {name : String}
    {rest : List String} :
    nameFault? ending limit next name rest = none ↔
      ¬ (ending = .write ∧ rest ≠ [] ∧ ∀ segment ∈ rest, segment = "") ∧
        name.utf8ByteSize ≤ nameLimit ∧
        ∀ size, limit = some size → pathSize next ≤ size := by
  unfold nameFault?
  split
  · rename_i hslash
    simp only [Bool.and_eq_true, decide_eq_true_eq, List.all_eq_true, and_assoc] at hslash
    exact iff_of_false (by simp) fun h => h.1 hslash
  · rename_i hslash
    simp only [Bool.and_eq_true, decide_eq_true_eq, List.all_eq_true, and_assoc] at hslash
    cases limit <;> simp [hslash]

/-- Segments with a name among them, so that a walk through what is in front of them does not end
there. -/
def HasName (segments : List String) : Prop := ∃ name ∈ segments, name ≠ ""

theorem isReached_of_hasName (ending : Ending) {rest : List String} (h : HasName rest) :
    ending.isReached rest = false := by
  obtain ⟨name, hmem, hname⟩ := h
  cases ending with
  | pass => rfl
  | stop =>
    simp only [Ending.isReached, decide_eq_false_iff_not]
    rintro rfl
    cases hmem
  | name =>
    simp only [Ending.isReached, List.all_eq_false, decide_eq_true_eq]
    exact ⟨name, hmem, hname⟩
  | write => rfl

section Longer

variable {tree : FileTree} {ending : Ending} {limit : Option Nat}

theorem nameFault?_of_hasName {ending' : Ending} {next : Place} {name : String}
    {rest more : List String} (hmore : HasName more)
    (h : nameFault? ending limit next name rest = none) :
    nameFault? ending' limit next name (rest ++ more) = none := by
  refine nameFault?_eq_none_iff.mpr ⟨?_, (nameFault?_eq_none_iff.mp h).2⟩
  rintro ⟨-, -, hblank⟩
  obtain ⟨segment, hmem, hsegment⟩ := hmore
  exact hsegment (hblank segment (List.mem_append_right _ hmem))

def Stand.before (s : Stand) (more : List String) : Stand := ⟨s.links, s.here, s.ahead ++ more⟩

/-- A step does not depend on what is far ahead, nor on what the walk will make of the last of it,
if the names on the way may be passed all the same. -/
theorem Step.extend {ending' : Ending} {more : List String} {s s' : Stand}
    (h : Step tree ending limit s s')
    (hname : ∀ {here : Place} {name : String} {rest : List String},
      Passes ending limit here name rest →
      Passes ending' limit here name (rest ++ more)) :
        Step tree ending' limit (s.before more) (s'.before more) := by
  cases h with
  | stay hhere hsegment => exact .stay hhere hsegment
  | up hhere => exact .up hhere
  | @follow links here name target rest hhere hpasses hlink =>
    have hstep : Step tree ending' limit ⟨links + 1, here, name :: (rest ++ more)⟩ _ :=
      .follow hhere (hname hpasses) hlink
    rwa [← List.append_assoc] at hstep
  | into hhere hpasses hentry hlink => exact .into hhere (hname hpasses) hentry hlink

theorem Step.before {ending' : Ending} {more : List String} (hmore : HasName more) {s s' : Stand}
    (h : Step tree ending limit s s') :
    Step tree ending' limit (s.before more) (s'.before more) := by
  refine h.extend fun hpasses =>
    ⟨hpasses.plain, nameFault?_of_hasName hmore hpasses.sound, isReached_of_hasName ending' ?_⟩
  obtain ⟨segment, hmem, hsegment⟩ := hmore
  exact ⟨segment, List.mem_append_right _ hmem, hsegment⟩

/-- A walk that passes links takes the steps of every other walk, whatever lies ahead. -/
theorem Step.pass_before {s s' : Stand} (h : Step tree ending limit s s') (more : List String) :
    Step tree .pass limit (s.before more) (s'.before more) :=
  h.extend fun hpasses =>
    ⟨hpasses.plain,
      nameFault?_eq_none_iff.mpr ⟨by simp, (nameFault?_eq_none_iff.mp hpasses.sound).2⟩, rfl⟩

theorem Steps.before {ending' : Ending} {more : List String} (hmore : HasName more) {s s' : Stand}
    (h : Steps tree ending limit s s') :
    Steps tree ending' limit (s.before more) (s'.before more) :=
  Relation.ReflTransGen.lift (Stand.before · more) (fun _ _ => Step.before hmore) _ _ h

/-- Blank segments are passed in a directory. -/
theorem steps_of_blank {links : Nat} {here : Place} (hhere : tree.get? here = some .directory)
    {blanks : List String} (h : ∀ segment ∈ blanks, segment = "") (more : List String) :
    Steps tree ending limit ⟨links, here, blanks ++ more⟩ ⟨links, here, more⟩ := by
  induction blanks with
  | nil => exact .refl
  | cons segment rest ih =>
    have hstep : Step tree ending limit ⟨links, here, segment :: (rest ++ more)⟩
        ⟨links, here, rest ++ more⟩ :=
      .stay hhere (Or.inl (h segment List.mem_cons_self))
    exact .head hstep (ih fun other hother => h other (List.mem_cons_of_mem _ hother))

/-- A step over a path that ends in a name is a step over what is in front of the name. -/
theorem Step.cut {name : String} {s s' : Stand} {segments : List String}
    (h : Step tree ending limit s s') (hahead : s.ahead = segments ++ [name])
    (hne : segments ≠ []) :
    ∃ rest, s'.ahead = rest ++ [name] ∧
      Step tree .pass limit ⟨s.links, s.here, segments⟩ ⟨s'.links, s'.here, rest⟩ := by
  obtain ⟨segment, rest, rfl⟩ := List.exists_cons_of_ne_nil hne
  have hpasses {here : Place} {next : String} {rest : List String}
      (h : Passes ending limit here next (rest ++ [name])) : Passes .pass limit here next rest :=
    ⟨h.plain, nameFault?_eq_none_iff.mpr ⟨by simp, (nameFault?_eq_none_iff.mp h.sound).2⟩, rfl⟩
  rw [List.cons_append] at hahead
  cases h with
  | stay hhere hsegment =>
    cases hahead
    exact ⟨rest, rfl, .stay hhere hsegment⟩
  | up hhere =>
    cases hahead
    exact ⟨rest, rfl, .up hhere⟩
  | follow hhere hthrough hlink =>
    cases hahead
    exact ⟨_, (List.append_assoc _ _ _).symm, .follow hhere (hpasses hthrough) hlink⟩
  | into hhere hthrough hentry hlink =>
    cases hahead
    exact ⟨rest, rfl, .into hhere (hpasses hthrough) hentry hlink⟩

/-- A walk over a path that does not end in a slash comes through where what is in front of the last
segment leads to. -/
theorem exists_of_walk_name {name : String} (hname : name ≠ "") {links : Nat} {here place : Place}
    {segments : List String}
    (h : walk tree ending limit links here (segments ++ [name]) = .ok place) :
    ∃ links' above, Steps tree .pass limit ⟨links, here, segments⟩ ⟨links', above, []⟩ ∧
      walk tree ending limit links' above [name] = .ok place := by
  obtain ⟨last, hsteps, hends⟩ := walk_eq_ok_iff.mp h
  have hgoal : ∀ {s : Stand}, Steps tree ending limit s last →
      ∀ segments, s.ahead = segments ++ [name] →
      ∃ links' above, Steps tree .pass limit ⟨s.links, s.here, segments⟩ ⟨links', above, []⟩ ∧
        walk tree ending limit links' above [name] = .ok place := by
    intro s hsteps
    induction hsteps using Relation.ReflTransGen.head_induction_on with
    | refl =>
      intro segments hahead
      cases segments with
      | nil => exact ⟨last.links, last.here, .refl, by rw [← walk_of_ends hends, hahead]; rfl⟩
      | cons segment rest =>
        -- the walk cannot be over in front of the name
        have hrest : HasName (rest ++ [name]) := ⟨name, by simp, hname⟩
        cases hends with
        | arrived => cases hahead
        | missing _ _ _ _ hblank =>
          cases hahead
          exact absurd (hblank name (by simp)) hname
        | reached _ _ _ _ hreached =>
          cases hahead
          exact absurd ((isReached_of_hasName ending hrest).symm.trans hreached) Bool.false_ne_true
    | head hstep hsteps ih =>
      intro segments hahead
      by_cases hne : segments = []
      · subst hne
        refine ⟨_, _, .refl, ?_⟩
        have hwalk := (walk_of_steps (.head hstep hsteps)).trans (walk_of_ends hends)
        rw [hahead] at hwalk
        exact hwalk
      · obtain ⟨rest, hrest, hcut⟩ := hstep.cut hahead hne
        obtain ⟨links', above, hpath, hwalk⟩ := ih rest hrest
        exact ⟨links', above, .head hcut hpath, hwalk⟩
  exact hgoal hsteps segments rfl

end Longer

end FileTree

end ShaderEmbed
