import Mathlib.Data.List.Nodup
import Mathlib.Logic.ExistsUnique
import ShaderEmbed.Proofs.Fragment.Derivation

/-!
# Where flattening fails

A failure comes from deep inside an expansion. A `Trail` leads to it: the directives that were
followed, each with the fragment that holds it, its line number and the fragment it names, and what
is wrong with the fragment they end at. `FirstProblem` says that nothing before the trail is at
fault: on the way to the line of each step there are only ordinary lines and directives whose
fragments flatten on their own, and the fragments on the way differ.

* `exists_firstProblem`: an expansion that fails has such a trail, also inside the expansion of
  other fragments.
* `FirstProblem.stuck`, `FirstProblem.stuck_target`: no fragment on a trail stands for anything.
* `FirstProblem.unique`: two trails from one fragment never part. Where they would, the line of the
  one stands before the line of the other, but its fragment does not flatten.
* `flatten_eq_error_iff`: flattening fails exactly with the failure at the end of the one trail
  there is.
-/

namespace ShaderEmbed

/-! ## Trails -/

/-- A directive that is followed: the fragment it stands in, the number of its line, and the
fragment it names. -/
@[ext] structure Hop where
  source : Path
  line : Nat
  target : Path
deriving DecidableEq, Repr

/-- What is wrong with the fragment at the end of a trail: it is not there, a line of it is a
directive without a reference, or it is being expanded already. -/
inductive Ending where
  | missing
  | blank (line : Nat)
  | again
deriving DecidableEq, Repr

/-- Steps from one fragment to another, and what is wrong with the last fragment. -/
structure Trail where
  hops : List Hop
  last : Path
  ending : Ending
deriving DecidableEq, Repr

/-- The fragments that the steps of a trail start from. -/
def Trail.sources (t : Trail) : List Path := t.hops.map Hop.source

/-- The failure at the end of a trail that is followed while some fragments are being expanded. -/
def Trail.error (active : List Path) (t : Trail) : ShaderError :=
  match t.ending with
  | .missing => .notFound t.last
  | .blank number => .malformedInclude t.last number
  | .again => .cyclicInclude t.last (active ++ t.sources ++ [t.last])

/-- Each step starts where the one before it ended. -/
def Walk : Path → List Hop → Path → Prop
  | p, [], q => p = q
  | p, hop :: rest, q => hop.source = p ∧ Walk hop.target rest q

theorem Walk.drop {p q : Path} {before after : List Hop} {hop : Hop}
    (h : Walk p (before ++ hop :: after) q) :
    Walk hop.source (hop :: after) q := by
  induction before generalizing p with
  | nil => exact ⟨rfl, h.2⟩
  | cons first rest ih => exact ih h.2

namespace FragmentMap

variable {fragments : FragmentMap} {marker : String} {p : Path}
  {text : String} {sources : List Path}

/-- A line of the fragment at a path at which flattening does not fail: an ordinary one, or a
directive whose fragment flattens on its own. -/
def Harmless (fragments : FragmentMap) (marker : String) (p : Path) (line : String) : Prop :=
  Line.classify marker line = .ordinary ∨
    ∃ reference flat, Line.classify marker line = .includes reference ∧
      (fragments.source.flatten marker (included p reference)).result = .ok flat

/-- The fragment at a path is there and has a line with a number, counted from one, behind harmless
lines only. -/
def Reaches (fragments : FragmentMap) (marker : String) (p : Path) (number : Nat)
    (line : String) : Prop :=
  ∃ content before after, fragments.get? p = some content ∧
    Text.terminatedLines content = before ++ line :: after ∧ number = before.length + 1 ∧
    ∀ earlier ∈ before, fragments.Harmless marker p earlier

/-- A step follows the directive on its line, which is reached. -/
def Follows (fragments : FragmentMap) (marker : String) (hop : Hop) : Prop :=
  ∃ line reference, fragments.Reaches marker hop.source hop.line line ∧
    Line.classify marker line = .includes reference ∧ hop.target = included hop.source reference

/-- What an ending says about the last fragment of a trail, given the fragments that are being
expanded there. -/
def Ends (fragments : FragmentMap) (marker : String) (expanding : List Path)
    (last : Path) : Ending → Prop
  | .missing => fragments.get? last = none
  | .blank number => last ∉ expanding ∧
      ∃ line, fragments.Reaches marker last number line ∧ Line.classify marker line = .blank
  | .again => last ∈ expanding

/-- The fragment at a path stands for nothing. -/
def Stuck (fragments : FragmentMap) (marker : String) (p : Path) : Prop :=
  ∀ text sources, ¬ fragments.Derives marker p text sources

/-- The trail from a fragment to the first problem, while some fragments are being expanded around
it. -/
structure FirstProblem (fragments : FragmentMap) (marker : String)
    (active : List Path) (start : Path) (t : Trail) : Prop where
  walk : Walk start t.hops t.last
  follows : ∀ hop ∈ t.hops, fragments.Follows marker hop
  distinct : (active ++ t.sources).Nodup
  ends : fragments.Ends marker (active ++ t.sources) t.last t.ending

/-! ## A failed expansion has a trail -/

theorem harmless_of_passes {stack : List Active} {line : String}
    (h : Passes marker p (fragments.source.expand marker stack) line) :
    fragments.Harmless marker p line := by
  rcases h with hline | ⟨reference, hline, flat, hflat⟩
  · exact Or.inl hline
  · have hderives :
        fragments.Derives marker (included p reference).normalize flat.text flat.sources := by
      rw [included, Path.normalize_normalize]
      exact derives_of_expand hflat
    exact Or.inr ⟨reference, _, hline, flatten_of_derives hderives⟩

theorem FirstProblem.cons {active : List Path} {q : Path} {number : Nat} {t : Trail}
    (hfollows : fragments.Follows marker ⟨p, number, q⟩)
    (h : fragments.FirstProblem marker (active ++ [p]) q t) :
    fragments.FirstProblem marker active p ⟨⟨p, number, q⟩ :: t.hops, t.last, t.ending⟩ where
  walk := ⟨rfl, h.walk⟩
  follows := List.forall_mem_cons.mpr ⟨hfollows, h.follows⟩
  distinct := by simpa [Trail.sources] using h.distinct
  ends := by simpa [Trail.sources] using h.ends

/-- An expansion that fails inside others has a trail to the first problem, and the failure is the
one there. -/
theorem exists_firstProblem {stack : List Active} {e : ShaderError} (hstack : Lexical stack)
    (hdistinct : (stack.map Active.path).Nodup) (hnormal : p.normalize = p)
    (h : (fragments.source.expand marker stack p).result = .error e) :
    ∃ t : Trail, fragments.FirstProblem marker (stack.map Active.path) p t ∧
      t.error (stack.map Active.path) = e := by
  induction stack, p using FragmentSource.expand.induct fragments.source with
  | case1 stack p e' hid => cases hid
  | case2 stack p id hid hactive =>
    cases hid
    rw [FragmentSource.expand_of_active rfl hactive] at h
    cases h
    refine ⟨⟨[], p, .again⟩, ⟨rfl, by simp, by simpa [Trail.sources] using hdistinct, ?_⟩, ?_⟩
    · simpa [Ends, Trail.sources] using (hstack.mem_identities_iff hnormal).mp hactive
    · simp [Trail.error, Trail.sources]
  | case3 stack p id hid hnew e' hread =>
    rw [FragmentSource.expand_of_read_error hid hnew hread] at h
    cases h
    obtain ⟨hget, rfl⟩ := get?_of_read_error hread
    exact ⟨⟨[], p, .missing⟩, ⟨rfl, by simp, by simpa [Trail.sources] using hdistinct, hget⟩, rfl⟩
  | case4 stack p id hid hnew content hread ih =>
    cases hid
    have hp : p ∉ stack.map Active.path :=
      fun hmem => hnew ((hstack.mem_identities_iff hnormal).mpr hmem)
    rw [FragmentSource.expand_of_read rfl hnew hread, Attempt.result_entered, map_eq_error_iff] at h
    obtain ⟨before, line, after, hlines, hbefore, hstops⟩ := exists_of_expandLines_error h
    have hreaches : fragments.Reaches marker p (1 + before.length) line :=
      ⟨content, before, after, get?_of_read hread, hlines, by omega,
        fun earlier hearlier => harmless_of_passes (hbefore earlier hearlier)⟩
    cases hstops with
    | blank hline =>
      refine ⟨⟨[], p, .blank (1 + before.length)⟩,
        ⟨rfl, by simp, by simpa [Trail.sources] using hdistinct, ?_, line, hreaches, hline⟩, rfl⟩
      simpa [Trail.sources] using hp
    | @includes reference _ hline hsub =>
      have hinner : ((stack ++ [Active.mk p.place p]).map Active.path).Nodup := by
        rw [List.map_append, List.map_singleton, ← List.concat_eq_append, List.nodup_concat]
        exact ⟨hp, hdistinct⟩
      obtain ⟨t, ht, herror⟩ := ih (included p reference) (hstack.push hnormal) hinner
        (Path.normalize_normalize _) hsub
      simp only [List.map_append, List.map_cons, List.map_nil] at ht herror
      have hfollows : fragments.Follows marker ⟨p, 1 + before.length, included p reference⟩ :=
        ⟨line, reference, hreaches, hline, by simp only⟩
      refine ⟨_, FirstProblem.cons hfollows ht, ?_⟩
      rw [← herror]
      cases hending : t.ending <;> simp [Trail.error, Trail.sources, hending]

/-! ## Nothing on a trail stands for anything -/

/-- A directive among lines that stand for something names a fragment that stands for part of it. -/
theorem DerivesLines.of_mem {lines : List String} {line : String}
    (h : fragments.DerivesLines marker p lines text sources) (hmem : line ∈ lines) :
    Line.classify marker line = .ordinary ∨ ∃ reference inner innerSources,
      Line.classify marker line = .includes reference ∧
      fragments.Derives marker (included p reference) inner innerSources ∧
      innerSources.length ≤ sources.length := by
  induction lines generalizing text sources with
  | nil => cases hmem
  | cons first rest ih =>
    cases h with
    | ordinary hline hrest =>
      rcases List.mem_cons.mp hmem with rfl | hmem
      · exact Or.inl hline.classify_eq
      · exact ih hrest hmem
    | directive hline hsub hrest =>
      rcases List.mem_cons.mp hmem with rfl | hmem
      · exact Or.inr ⟨_, _, _, hline.classify_eq, hsub, by simp⟩
      · rcases ih hrest hmem with
          hordinary | ⟨reference, inner, innerSources, hincludes, hderives, hle⟩
        · exact Or.inl hordinary
        · exact Or.inr ⟨reference, inner, innerSources, hincludes, hderives,
            by rw [List.length_append]; omega⟩

theorem Reaches.of_derives {number : Nat} {line : String}
    (hreaches : fragments.Reaches marker p number line)
    (h : fragments.Derives marker p text sources) :
    Line.classify marker line = .ordinary ∨ ∃ reference inner innerSources,
      Line.classify marker line = .includes reference ∧
      fragments.Derives marker (included p reference) inner innerSources ∧
      innerSources.length < sources.length := by
  obtain ⟨content, before, after, hget, hlines, -, -⟩ := hreaches
  obtain ⟨content', rest, hget', rfl, hderives⟩ := derives_iff.mp h
  obtain rfl := Option.some.inj (hget.symm.trans hget')
  have hmem : line ∈ Text.terminatedLines content := by
    rw [hlines]
    simp
  rcases hderives.of_mem hmem with
    hordinary | ⟨reference, inner, innerSources, hincludes, hinner, hle⟩
  · exact Or.inl hordinary
  · exact Or.inr ⟨reference, inner, innerSources, hincludes, hinner, Nat.lt_succ_of_le hle⟩

theorem Follows.derives_target {hop : Hop} (hfollows : fragments.Follows marker hop)
    (h : fragments.Derives marker hop.source text sources) :
    ∃ inner innerSources, fragments.Derives marker hop.target inner innerSources ∧
      innerSources.length < sources.length := by
  obtain ⟨line, reference, hreaches, hline, htarget⟩ := hfollows
  rcases hreaches.of_derives h with
    hordinary | ⟨reference', inner, innerSources, hincludes, hderives, hlt⟩
  · rw [hline] at hordinary
    cases hordinary
  · rw [hline] at hincludes
    cases hincludes
    exact ⟨inner, innerSources, htarget ▸ hderives, hlt⟩

/-- Along a walk, what a fragment stands for has fewer sources with each step. -/
theorem derives_of_walk {q : Path} {hops : List Hop} (hwalk : Walk p hops q)
    (hfollows : ∀ hop ∈ hops, fragments.Follows marker hop)
    (h : fragments.Derives marker p text sources) :
    ∃ inner innerSources, fragments.Derives marker q inner innerSources ∧
      innerSources.length + hops.length ≤ sources.length := by
  induction hops generalizing p text sources with
  | nil =>
    obtain rfl : p = q := hwalk
    exact ⟨text, sources, h, Nat.le_refl _⟩
  | cons hop rest ih =>
    obtain ⟨rfl, hwalk⟩ := hwalk
    obtain ⟨hfirst, hrest⟩ := List.forall_mem_cons.mp hfollows
    obtain ⟨inner, innerSources, hinner, hlt⟩ := hfirst.derives_target h
    obtain ⟨final, finalSources, hfinal, hle⟩ := ih hwalk hrest hinner
    refine ⟨final, finalSources, hfinal, ?_⟩
    rw [List.length_cons]
    omega

theorem FirstProblem.stuck_last {start : Path} {t : Trail}
    (h : fragments.FirstProblem marker [] start t) :
    fragments.Stuck marker t.last := by
  intro text sources hderives
  have hends := h.ends
  cases hending : t.ending with
  | missing =>
    rw [hending] at hends
    obtain ⟨content, rest, hget, -, -⟩ := derives_iff.mp hderives
    rw [show fragments.get? t.last = none from hends] at hget
    cases hget
  | blank number =>
    rw [hending] at hends
    obtain ⟨-, line, hreaches, hline⟩ := hends
    rcases hreaches.of_derives hderives with hordinary | ⟨reference, _, _, hincludes, -, -⟩
    · rw [hline] at hordinary
      cases hordinary
    · rw [hline] at hincludes
      cases hincludes
  | again =>
    -- the walk from the earlier visit back to the fragment loses sources, and yet ends with as many
    rw [hending] at hends
    obtain ⟨hop, hmem, hsource⟩ := List.mem_map.mp (show t.last ∈ t.hops.map Hop.source from hends)
    obtain ⟨before, after, hhops⟩ := List.append_of_mem hmem
    have hwalk := h.walk
    rw [hhops] at hwalk
    have hloop := hwalk.drop
    rw [hsource] at hloop
    have hfollows : ∀ step ∈ hop :: after, fragments.Follows marker step := by
      intro step hstep
      exact h.follows step (hhops ▸ List.mem_append_right _ hstep)
    obtain ⟨inner, innerSources, hinner, hle⟩ := derives_of_walk hloop hfollows hderives
    obtain ⟨-, rfl⟩ := hinner.unique hderives
    rw [List.length_cons] at hle
    omega

theorem FirstProblem.stuck {start : Path} {t : Trail}
    (h : fragments.FirstProblem marker [] start t) :
    fragments.Stuck marker start := by
  intro text sources hderives
  obtain ⟨_, _, hlast, -⟩ := derives_of_walk h.walk h.follows hderives
  exact h.stuck_last _ _ hlast

theorem FirstProblem.stuck_target {start : Path} {t : Trail} {hop : Hop}
    (h : fragments.FirstProblem marker [] start t) (hmem : hop ∈ t.hops) :
    fragments.Stuck marker hop.target := by
  intro text sources hderives
  obtain ⟨before, after, hhops⟩ := List.append_of_mem hmem
  have hwalk := h.walk
  rw [hhops] at hwalk
  have hfollows : ∀ step ∈ after, fragments.Follows marker step := by
    intro step hstep
    exact h.follows step (hhops ▸ List.mem_append_right _ (List.mem_cons_of_mem _ hstep))
  obtain ⟨_, _, hlast, -⟩ := derives_of_walk hwalk.drop.2 hfollows hderives
  exact h.stuck_last _ _ hlast

/-! ## Trails do not part -/

theorem Harmless.derives {line reference : String} (h : fragments.Harmless marker p line)
    (hline : Line.classify marker line = .includes reference) :
    ∃ inner innerSources, fragments.Derives marker (included p reference) inner innerSources := by
  rcases h with hordinary | ⟨reference', flat, hincludes, hflat⟩
  · rw [hline] at hordinary
    cases hordinary
  · rw [hline] at hincludes
    cases hincludes
    have hderives := derives_of_expand hflat
    rw [included, Path.normalize_normalize] at hderives
    exact ⟨_, _, hderives⟩

/-- Of two lines that are reached and are not harmless, neither stands before the other. -/
theorem Reaches.unique {number number' : Nat} {line line' : String}
    (h : fragments.Reaches marker p number line) (h' : fragments.Reaches marker p number' line')
    (hline : ¬ fragments.Harmless marker p line) (hline' : ¬ fragments.Harmless marker p line') :
    number = number' ∧ line = line' := by
  obtain ⟨content, before, after, hget, hlines, rfl, hbefore⟩ := h
  obtain ⟨content', before', after', hget', hlines', rfl, hbefore'⟩ := h'
  obtain rfl := Option.some.inj (hget.symm.trans hget')
  rw [hlines] at hlines'
  rcases List.append_eq_append_iff.mp hlines' with ⟨between, rfl, hrest⟩ | ⟨between, rfl, hrest⟩
  · cases between with
    | nil =>
      simp only [List.nil_append, List.cons.injEq] at hrest
      exact ⟨by simp, hrest.1⟩
    | cons first others =>
      simp only [List.cons_append, List.cons.injEq] at hrest
      obtain ⟨rfl, -⟩ := hrest
      exact absurd (hbefore' line (by simp)) hline
  · cases between with
    | nil =>
      simp only [List.nil_append, List.cons.injEq] at hrest
      exact ⟨by simp, hrest.1.symm⟩
    | cons first others =>
      simp only [List.cons_append, List.cons.injEq] at hrest
      obtain ⟨rfl, -⟩ := hrest
      exact absurd (hbefore line' (by simp)) hline'

theorem Follows.get?_source {hop : Hop} (h : fragments.Follows marker hop) :
    fragments.get? hop.source ≠ none := by
  obtain ⟨line, reference, ⟨content, before, after, hget, -⟩, -⟩ := h
  rw [hget]
  exact Option.some_ne_none content

/-- The line of a step to a fragment that stands for nothing is not harmless. -/
theorem Follows.exists_line {hop : Hop} (h : fragments.Follows marker hop)
    (hstuck : fragments.Stuck marker hop.target) :
    ∃ line reference, fragments.Reaches marker hop.source hop.line line ∧
      Line.classify marker line = .includes reference ∧ hop.target = included hop.source reference ∧
      ¬ fragments.Harmless marker hop.source line := by
  obtain ⟨line, reference, hreaches, hline, htarget⟩ := h
  refine ⟨line, reference, hreaches, hline, htarget, fun hharmless => ?_⟩
  obtain ⟨text, sources, hderives⟩ := hharmless.derives hline
  exact hstuck text sources (htarget ▸ hderives)

/-- Two steps from one fragment to fragments that stand for nothing are one step. -/
theorem Follows.unique {hop hop' : Hop} (h : fragments.Follows marker hop)
    (h' : fragments.Follows marker hop') (hsource : hop'.source = hop.source)
    (hstuck : fragments.Stuck marker hop.target)
    (hstuck' : fragments.Stuck marker hop'.target) : hop' = hop := by
  obtain ⟨line, reference, hreaches, hline, hincluded, hharm⟩ := h.exists_line hstuck
  obtain ⟨line', reference', hreaches', hline', hincluded', hharm'⟩ := h'.exists_line hstuck'
  rw [hsource] at hreaches' hharm' hincluded'
  obtain ⟨hnumber, rfl⟩ := hreaches.unique hreaches' hharm hharm'
  rw [hline] at hline'
  cases hline'
  exact Hop.ext hsource hnumber.symm (hincluded'.trans hincluded.symm)

theorem not_harmless_of_blank {line : String} (hline : Line.classify marker line = .blank) :
    ¬ fragments.Harmless marker p line := by
  rintro (hordinary | ⟨_, _, hincludes, -⟩)
  · rw [hline] at hordinary
    cases hordinary
  · rw [hline] at hincludes
    cases hincludes

/-- Where one trail takes a step to a fragment that stands for nothing, no trail ends. -/
theorem Follows.not_ends {active : List Path} {hop : Hop} {ending : Ending}
    (h : fragments.Follows marker hop) (hnew : hop.source ∉ active)
    (hstuck : fragments.Stuck marker hop.target) :
    ¬ fragments.Ends marker active hop.source ending := by
  intro hends
  cases ending with
  | missing => exact h.get?_source hends
  | blank number =>
    obtain ⟨-, line', hreaches', hline'⟩ := hends
    obtain ⟨line, reference, hreaches, hline, -, hharm⟩ := h.exists_line hstuck
    obtain ⟨-, rfl⟩ := hreaches.unique hreaches' hharm (not_harmless_of_blank hline')
    rw [hline] at hline'
    cases hline'
  | again => exact hnew hends

/-- A fragment has at most one ending, if the fragments that are being expanded are there. -/
theorem Ends.unique {active : List Path} {ending ending' : Ending}
    (hactive : ∀ q ∈ active, fragments.get? q ≠ none) (h : fragments.Ends marker active p ending)
    (h' : fragments.Ends marker active p ending') :
    ending = ending' := by
  have hpresent {number : Nat} (hblank : fragments.Ends marker active p (.blank number)) :
      fragments.get? p ≠ none := by
    obtain ⟨-, line, ⟨content, before, after, hget, -⟩, -⟩ := hblank
    rw [hget]
    exact Option.some_ne_none content
  cases ending with
  | missing =>
    cases ending' with
    | missing => rfl
    | blank number => exact absurd h (hpresent h')
    | again => exact absurd h (hactive p h')
  | blank number =>
    cases ending' with
    | missing => exact absurd h' (hpresent h)
    | blank number' =>
      obtain ⟨-, line, hreaches, hline⟩ := h
      obtain ⟨-, line', hreaches', hline'⟩ := h'
      obtain ⟨rfl, -⟩ :=
        hreaches.unique hreaches' (not_harmless_of_blank hline) (not_harmless_of_blank hline')
      rfl
    | again => exact absurd h' h.1
  | again =>
    cases ending' with
    | missing => exact absurd h' (hactive p h)
    | blank number => exact absurd h h'.1
    | again => rfl

theorem FirstProblem.source_notMem {active : List Path} {start : Path} {hop : Hop}
    {rest : List Hop} {last : Path} {ending : Ending}
    (h : fragments.FirstProblem marker active start ⟨hop :: rest, last, ending⟩) :
    hop.source ∉ active := by
  intro hmem
  have hdistinct := (List.nodup_append.mp h.distinct).2.2
  exact hdistinct hop.source hmem hop.source (List.mem_cons_self) rfl

theorem FirstProblem.tail {active : List Path} {start : Path} {hop : Hop}
    {rest : List Hop} {last : Path} {ending : Ending}
    (h : fragments.FirstProblem marker active start ⟨hop :: rest, last, ending⟩) :
    fragments.FirstProblem marker (active ++ [hop.source]) hop.target ⟨rest, last, ending⟩ where
  walk := h.walk.2
  follows := (List.forall_mem_cons.mp h.follows).2
  distinct := by simpa [Trail.sources] using h.distinct
  ends := by simpa [Trail.sources] using h.ends

/-- Two trails from one fragment are one trail, if their steps lead to fragments that stand for
nothing. -/
theorem FirstProblem.unique {active : List Path} {start : Path} {t t' : Trail}
    (h : fragments.FirstProblem marker active start t)
    (h' : fragments.FirstProblem marker active start t')
    (hactive : ∀ q ∈ active, fragments.get? q ≠ none)
    (hstuck : ∀ hop ∈ t.hops, fragments.Stuck marker hop.target)
    (hstuck' : ∀ hop ∈ t'.hops, fragments.Stuck marker hop.target) : t = t' := by
  obtain ⟨hops, last, ending⟩ := t
  obtain ⟨hops', last', ending'⟩ := t'
  induction hops generalizing active start hops' with
  | nil =>
    obtain rfl : start = last := h.walk
    cases hops' with
    | nil =>
      obtain rfl : start = last' := h'.walk
      have hends : fragments.Ends marker active start ending := by
        simpa [Trail.sources] using h.ends
      have hends' : fragments.Ends marker active start ending' := by
        simpa [Trail.sources] using h'.ends
      rw [hends.unique hactive hends']
    | cons hop' rest' =>
      obtain rfl : hop'.source = start := h'.walk.1
      have hfollows := h'.follows hop' List.mem_cons_self
      have hends : fragments.Ends marker active hop'.source ending := by
        simpa [Trail.sources] using h.ends
      exact absurd hends (hfollows.not_ends h'.source_notMem (hstuck' hop' List.mem_cons_self))
  | cons hop rest ih =>
    obtain rfl : hop.source = start := h.walk.1
    have hfollows := h.follows hop List.mem_cons_self
    cases hops' with
    | nil =>
      obtain rfl : hop.source = last' := h'.walk
      have hends : fragments.Ends marker active hop.source ending' := by
        simpa [Trail.sources] using h'.ends
      exact absurd hends (hfollows.not_ends h.source_notMem (hstuck hop List.mem_cons_self))
    | cons hop' rest' =>
      have hsource : hop'.source = hop.source := h'.walk.1
      obtain rfl := hfollows.unique (h'.follows hop' List.mem_cons_self) hsource
        (hstuck hop List.mem_cons_self) (hstuck' hop' List.mem_cons_self)
      have hactive' : ∀ q ∈ active ++ [hop'.source], fragments.get? q ≠ none := by
        intro q hq
        rcases List.mem_append.mp hq with hq | hq
        · exact hactive q hq
        · obtain rfl := List.mem_singleton.mp hq
          exact hfollows.get?_source
      have htail := ih hactive' h.tail
        (fun step hstep => hstuck step (List.mem_cons_of_mem _ hstep)) rest' h'.tail
        (fun step hstep => hstuck' step (List.mem_cons_of_mem _ hstep))
      injection htail with hrest hlast hending
      rw [hrest, hlast, hending]

/-! ## Flattening -/

/-- Flattening fails with an error exactly when there is one trail to the first problem that it
meets, and the error is the one at the end of the trail. -/
theorem flatten_eq_error_iff (fragments : FragmentMap) (marker : String)
    (entry : Path) (e : ShaderError) :
    (fragments.source.flatten marker entry).result = .error e ↔
      ∃! t : Trail, fragments.FirstProblem marker [] entry.normalize t ∧ t.error [] = e := by
  have hunique {t t' : Trail} (h : fragments.FirstProblem marker [] entry.normalize t)
      (h' : fragments.FirstProblem marker [] entry.normalize t') : t' = t :=
    h'.unique h (by simp) (fun hop hhop => h'.stuck_target hhop)
      (fun hop hhop => h.stuck_target hhop)
  have hexists {e : ShaderError} (h : (fragments.source.flatten marker entry).result = .error e) :
      ∃ t : Trail, fragments.FirstProblem marker [] entry.normalize t ∧ t.error [] = e :=
    exists_firstProblem (fun _ hentry => absurd hentry List.not_mem_nil) List.nodup_nil
      (Path.normalize_normalize entry) h
  constructor
  · intro h
    obtain ⟨t, ht, herror⟩ := hexists h
    exact ⟨t, ⟨ht, herror⟩, fun t' ht' => hunique ht ht'.1⟩
  · rintro ⟨t, ⟨ht, rfl⟩, -⟩
    cases hresult : (fragments.source.flatten marker entry).result with
    | ok flat => exact absurd (derives_of_expand hresult) (ht.stuck _ _)
    | error e =>
      obtain ⟨t', ht', rfl⟩ := hexists hresult
      rw [hunique ht ht']

end FragmentMap

end ShaderEmbed
