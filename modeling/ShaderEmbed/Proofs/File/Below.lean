import ShaderEmbed.Proofs.File.Access

/-!
# Walking below a directory

Where no link lies below a directory, a walk that does not go up stays below it, and arrives at the
place that its segments name (`eq_of_walk_below`); and a walk along the names of something that lies
there arrives at it (`walk_below`). So the place of a path below such a directory is known from its
spelling, once it is known where the directory is.

To a directory the names from the root lead in any case, since what is on the way to it is no link
(`walk_through`).
-/

namespace ShaderEmbed.FileTree

/-- No link lies at a place or below it. -/
def IsLinkless (tree : FileTree) (top : Place) : Prop :=
  ∀ names target, tree.get? (top ++ names) ≠ some (.link target)

/-- The segments that lead further down, where none leads up. -/
def descents (segments : List String) : List String :=
  segments.filter fun segment => segment ≠ "" && segment ≠ "."

section Descents

variable {segment : String} {rest : List String}

theorem descents_stay (h : segment = "" ∨ segment = ".") :
    descents (segment :: rest) = descents rest := by
  rcases h with rfl | rfl <;> rfl

theorem descents_plain (h : IsPlain segment) :
    descents (segment :: rest) = segment :: descents rest := by
  obtain ⟨hempty, hdot, -⟩ := h
  simp [descents, hempty, hdot]

theorem descents_blank (h : ∀ segment ∈ rest, segment = "") : descents rest = [] := by
  rw [descents, List.filter_eq_nil_iff]
  intro segment hsegment
  simp [h segment hsegment]

theorem descents_of_forall_plain (h : ∀ segment ∈ rest, IsPlain segment) :
    descents rest = rest := by
  rw [descents, List.filter_eq_self]
  intro segment hsegment
  obtain ⟨hempty, hdot, -⟩ := h segment hsegment
  simp [hempty, hdot]

end Descents

variable {tree : FileTree} {ending : Ending} {limit : Option Nat} {links : Nat} {here place : Place}
  {segments : List String}

theorem IsLinkless.below (h : tree.IsLinkless here) (names : List String) :
    tree.IsLinkless (here ++ names) := by
  intro more target
  rw [List.append_assoc]
  exact h (names ++ more) target

/-! ## Where a walk arrives -/

/-- A stand below which there are no links, and from which the walk does not go up. -/
structure Stand.GoesDown (tree : FileTree) (s : Stand) : Prop where
  linkless : tree.IsLinkless s.here
  down : ".." ∉ s.ahead

/-- A step down leads to the same place in the end. -/
theorem Step.goesDown {s s' : Stand} (hstep : Step tree ending limit s s') (h : s.GoesDown tree) :
    s'.GoesDown tree ∧ s'.here ++ descents s'.ahead = s.here ++ descents s.ahead := by
  have hdown := h.down
  cases hstep with
  | stay _ hsegment =>
    refine ⟨⟨h.linkless, fun hmem => hdown (List.mem_cons_of_mem _ hmem)⟩, ?_⟩
    rw [descents_stay hsegment]
  | up _ => exact absurd List.mem_cons_self hdown
  | @follow links here name target rest _ _ hlink => exact absurd hlink (h.linkless [name] target)
  | @into links here name rest entry _ hname _ _ =>
    refine ⟨⟨h.linkless.below [name], fun hmem => hdown (List.mem_cons_of_mem _ hmem)⟩, ?_⟩
    rw [descents_plain hname.plain, List.append_assoc, List.singleton_append]

theorem Steps.goesDown {s s' : Stand} (hsteps : Steps tree ending limit s s')
    (h : s.GoesDown tree) :
    s'.GoesDown tree ∧ s'.here ++ descents s'.ahead = s.here ++ descents s.ahead := by
  induction hsteps with
  | refl => exact ⟨h, rfl⟩
  | tail _ hstep ih =>
    obtain ⟨hmid, hsame⟩ := ih
    obtain ⟨hlast, hsame'⟩ := hstep.goesDown hmid
    exact ⟨hlast, hsame'.trans hsame⟩

theorem blank_of_isReached {rest : List String} (h : ending.isReached rest = true) :
    ∀ segment ∈ rest, segment = "" := by
  cases ending with
  | pass | write => cases h
  | stop => simp_all [Ending.isReached]
  | name => simpa [Ending.isReached] using h

/-- A walk down without links arrives at the place that its segments name. -/
theorem eq_of_walk_below (hlinkless : tree.IsLinkless here) (hdown : ".." ∉ segments)
    (hwalk : walk tree ending limit links here segments = .ok place) :
    place = here ++ descents segments := by
  obtain ⟨s, hsteps, hends⟩ := walk_eq_ok_iff.mp hwalk
  have hstart : Stand.GoesDown tree ⟨links, here, segments⟩ := ⟨hlinkless, hdown⟩
  obtain ⟨-, hsame⟩ := hsteps.goesDown hstart
  rw [← hsame]
  cases hends with
  | arrived => simp [descents]
  | missing _ hplain _ _ hrest => rw [descents_plain hplain, descents_blank hrest]
  | reached _ hplain _ _ hreached =>
    rw [descents_plain hplain, descents_blank (blank_of_isReached hreached)]

/-! ## Walking to what is there -/

theorem pathSize_le_append (front back : Place) : pathSize front ≤ pathSize (front ++ back) := by
  induction front with
  | nil => exact Nat.zero_le _
  | cons name rest ih =>
    have hcons (place : Place) : pathSize (name :: place) = 1 +
        name.utf8ByteSize + pathSize place := rfl
    rw [List.cons_append, hcons, hcons]
    omega

theorem IsClosed.exists_above (h : tree.IsClosed) {names : List String} {entry : Entry}
    (hentry : tree.get? (here ++ names) = some entry) : ∃ above, tree.get? here = some above := by
  rw [← Option.ne_none_iff_exists']
  intro hnone
  rw [h.below hnone (List.prefix_append _ _)] at hentry
  cases hentry

/-- Names that are short enough lead to what lies below a directory, if there is no link on the
way. -/
theorem IsClosed.walk_below (h : tree.IsClosed) (hlinkless : tree.IsLinkless here)
    {names : List String} {entry : Entry}
    (hnames : ∀ name ∈ names, IsPlain name ∧ name.utf8ByteSize ≤ nameLimit)
    (hentry : tree.get? (here ++ names) = some entry)
    (hlimit : ∀ size, limit = some size → pathSize (here ++ names) ≤ size) :
    walk tree .pass limit links here names = .ok (here ++ names) := by
  induction names generalizing here with
  | nil => rw [walk, List.append_nil]
  | cons name rest ih =>
    obtain ⟨hplain, hshort⟩ := hnames name List.mem_cons_self
    rw [← List.singleton_append, ← List.append_assoc] at hentry hlimit ⊢
    obtain ⟨next, hnext⟩ := h.exists_above hentry
    have hhere : tree.get? here = some .directory := h here name (by rw [hnext]; rfl)
    have hsound : nameFault? .pass limit (here ++ [name]) name rest = none := by
      refine nameFault?_eq_none_iff.mpr ⟨by simp, hshort, fun size hsize => ?_⟩
      exact Nat.le_trans (pathSize_le_append _ rest) (hlimit size hsize)
    have hinto : Step tree .pass limit ⟨links, here, name :: rest⟩
        ⟨links, here ++ [name], rest⟩ := by
      refine .into hhere ⟨hplain, hsound, rfl⟩ hnext ?_
      rintro target rfl
      exact hlinkless [name] target hnext
    exact (walk_of_step hinto).trans
      (ih (hlinkless.below [name])
        (fun other hother => hnames other (List.mem_cons_of_mem _ hother)) hentry hlimit)

/-! ## Walking to a directory first -/

theorem IsClosed.directory_above (h : tree.IsClosed) {names : List String}
    (hdirectory : tree.get? (here ++ names) = some .directory) :
    tree.get? here = some .directory := by
  cases names with
  | nil => rwa [List.append_nil] at hdirectory
  | cons name rest =>
    rw [← List.singleton_append, ← List.append_assoc] at hdirectory
    obtain ⟨next, hnext⟩ := h.exists_above hdirectory
    exact h here name (by rw [hnext]; rfl)

/-- A walk along the names of a directory comes to it, whatever is ahead. -/
theorem IsClosed.walk_through (h : tree.IsClosed) {names : List String}
    (hnames : ∀ name ∈ names, IsPlain name ∧ name.utf8ByteSize ≤ nameLimit)
    (hdirectory : tree.get? (here ++ names) = some .directory) (more : List String) :
    walk tree .pass none links here (names ++ more) =
      walk tree .pass none links (here ++ names) more := by
  induction names generalizing here with
  | nil => rw [List.append_nil, List.nil_append]
  | cons name rest ih =>
    obtain ⟨hplain, hshort⟩ := hnames name List.mem_cons_self
    have hhere := h.directory_above hdirectory
    rw [← List.singleton_append, ← List.append_assoc] at hdirectory ⊢
    have hsound : nameFault? .pass none (here ++ [name]) name (rest ++ more) = none :=
      nameFault?_eq_none_iff.mpr ⟨by simp, hshort, by simp⟩
    have hinto : Step tree .pass none ⟨links, here, name :: (rest ++ more)⟩
        ⟨links, here ++ [name], rest ++ more⟩ :=
      .into hhere ⟨hplain, hsound, rfl⟩ (h.directory_above hdirectory) (by simp)
    exact (walk_of_step hinto).trans
      (ih (fun other hother => hnames other (List.mem_cons_of_mem _ hother)) hdirectory)

/-- A walk that comes to a directory by a dot behind some segments comes to it by these segments,
whatever is ahead. -/
theorem exists_walk_of_dot
    (hwalk : walk tree .pass limit links here (segments ++ ["."]) = .ok place) :
    tree.get? place = some .directory ∧ ∃ links', ∀ more,
      walk tree .pass limit links here (segments ++ more) =
        walk tree .pass limit links' place more := by
  obtain ⟨links', above, hsteps, hlast⟩ := exists_of_walk_name (by decide) hwalk
  have habove := directory_of_walk_cons hlast
  have hstay : Step tree .pass limit ⟨links', above, ["."]⟩ ⟨links', above, []⟩ :=
    .stay habove (Or.inr rfl)
  obtain rfl : above = place := by
    have heq := (walk_of_step hstay).symm.trans hlast
    rw [walk] at heq
    exact Except.ok.inj heq
  refine ⟨habove, links', fun more => ?_⟩
  have hbefore : Steps tree .pass limit (Stand.before ⟨links, here, segments⟩ more)
      (Stand.before ⟨links', above, []⟩ more) :=
    Relation.ReflTransGen.lift (Stand.before · more)
      (fun _ _ hstep => hstep.pass_before more) _ _ hsteps
  exact walk_of_steps hbefore

end ShaderEmbed.FileTree
