import Mathlib.Data.Set.Basic
import ShaderEmbed.Proofs.File.Directories

/-!
# Trees that grow by directories and by files

What a build adds to a tree are directories where nothing was, and files at a few places, where a
file or nothing was (`AddsFiles`). No link is among that. So two trees that have grown from one
never lead a path to different places: where both of them lead it to something, that is in one place
(`LinksAgree.look_eq`). A path can only be of use in one of the two and lead nowhere in the other.
-/

namespace ShaderEmbed.FileTree

/-- What has become of a place, when files were written at some places. -/
inductive Added (tree later : FileTree) (places : Set Place) (place : Place) : Prop
  | kept (hsame : later.get? place = tree.get? place)
  | directory (hnone : tree.get? place = none) (hmade : later.get? place = some .directory)
  | file {content : Bytes} {runnable : Bool} (hplace : place ∈ places)
      (hwritten : later.get? place = some (.file content runnable))
      (hold : (∃ before, tree.get? place = some (.file before runnable)) ∨ tree.get? place = none ∧
        runnable = false)

/-- `later` has the same as `tree`, but for directories where `tree` has nothing and files at some
places. -/
def AddsFiles (tree later : FileTree) (places : Set Place) : Prop :=
  ∀ place, Added tree later places place

section Additions

variable {tree later last one other : FileTree} {places more : Set Place}
  {place : Place} {entry : Entry} {content : Bytes} {runnable : Bool}

theorem Alike.addsFiles (h : tree.Alike later) (places : Set Place) : tree.AddsFiles later places :=
  fun place => .kept (h place)

theorem AddsDirectories.addsFiles (h : tree.AddsDirectories later) (places : Set Place) :
    tree.AddsFiles later places := by
  intro place
  rcases h place with hsame | ⟨hnone, hmade⟩
  · exact .kept hsame
  · exact .directory hnone hmade

theorem Wrote.addsFiles (h : tree.Wrote place content later) : tree.AddsFiles later {place} := by
  intro spot
  by_cases hspot : spot = place
  · subst hspot
    have hroot {entry : Entry} (hentry : tree.get? spot = some entry) (hne : entry ≠ .directory) :
        spot ≠ [] := by
      rintro rfl
      exact hne (Option.some.inj hentry).symm
    cases h with
    | null | full => exact .kept rfl
    | replaced hfile =>
      exact .file rfl (get?_put_self _ (hroot hfile (by simp))) (Or.inl ⟨_, hfile⟩)
    | made hfree => exact .file rfl (get?_put_self _ hfree.ne_nil) (Or.inr ⟨hfree.none, rfl⟩)
  · exact .kept (h.get?_of_ne hspot)

namespace AddsFiles

theorem mono (h : tree.AddsFiles later places) (hsub : places ⊆ more) :
    tree.AddsFiles later more := by
  intro place
  cases h place with
  | kept hsame => exact .kept hsame
  | directory hnone hmade => exact .directory hnone hmade
  | file hplace hwritten hold => exact .file (hsub hplace) hwritten hold

theorem trans (h : tree.AddsFiles later places) (h' : later.AddsFiles last places) :
    tree.AddsFiles last places := by
  intro place
  cases h' place with
  | kept hsame' =>
    cases h place with
    | kept hsame => exact .kept (hsame'.trans hsame)
    | directory hnone hmade => exact .directory hnone (hsame'.trans hmade)
    | file hplace hwritten hold => exact .file hplace (hsame'.trans hwritten) hold
  | directory hnone' hmade' =>
    cases h place with
    | kept hsame => exact .directory (hsame.symm.trans hnone') hmade'
    | directory _ hmade => cases hnone'.symm.trans hmade
    | file _ hwritten => cases hnone'.symm.trans hwritten
  | file hplace hwritten' hold' =>
    refine .file hplace hwritten' ?_
    cases h place with
    | kept hsame => rwa [← hsame]
    | directory hnone hmade =>
      rcases hold' with ⟨before, hbefore⟩ | ⟨hnone', -⟩
      · cases hmade.symm.trans hbefore
      · cases hmade.symm.trans hnone'
    | file _ hwritten hold =>
      rcases hold' with ⟨before, hbefore⟩ | ⟨hnone', -⟩
      · cases hwritten.symm.trans hbefore
        exact hold
      · cases hwritten.symm.trans hnone'

theorem grows (h : tree.AddsFiles later places) : tree.Grows later := by
  intro place entry hentry
  cases h place with
  | kept hsame => exact ⟨entry, hsame.trans hentry, .same⟩
  | directory hnone => cases hnone.symm.trans hentry
  | file _ hwritten hold =>
    rcases hold with ⟨before, hbefore⟩ | ⟨hnone, -⟩
    · cases hbefore.symm.trans hentry
      exact ⟨_, hwritten, .file⟩
    · cases hnone.symm.trans hentry

/-- What was somewhere else is there still. -/
theorem elsewhere (h : tree.AddsFiles later places) (hplace : place ∉ places)
    (hentry : tree.get? place = some entry) :
    later.get? place = some entry := by
  cases h place with
  | kept hsame => exact hsame.trans hentry
  | directory hnone => cases hnone.symm.trans hentry
  | file hmem => exact absurd hmem hplace

/-- What is there now, and is no directory, was there already, or is a file that was written. -/
theorem was (h : tree.AddsFiles later places) (hentry : later.get? place = some entry)
    (hdirectory : entry ≠ .directory) (hfile : place ∈ places →
      ∀ content runnable, entry ≠ .file content runnable) : tree.get? place = some entry := by
  cases h place with
  | kept hsame => exact hsame.symm.trans hentry
  | directory _ hmade =>
    cases hmade.symm.trans hentry
    exact absurd rfl hdirectory
  | file hplace hwritten =>
    cases hwritten.symm.trans hentry
    exact absurd rfl (hfile hplace _ _)

theorem file_iff (h : tree.AddsFiles later places) (hplace : place ∉ places) :
    later.get? place = some (.file content runnable) ↔
    tree.get? place = some (.file content runnable) :=
  ⟨fun hlater => h.was hlater (by simp) fun hmem => absurd hmem hplace, h.elsewhere hplace⟩

theorem link (h : tree.AddsFiles later places) {target : String}
    (hlink : later.get? place = some (.link target)) :
    tree.get? place = some (.link target) :=
  h.was hlink (by simp) (by simp)

end AddsFiles

/-! ## Where paths lead -/

/-- Where two trees have something, they have the same link or no link. -/
def LinksAgree (tree other : FileTree) : Prop :=
  ∀ place entry entry', tree.get? place = some entry → other.get? place = some entry' →
    ∀ target, entry = .link target ↔ entry' = .link target

theorem AddsFiles.linksAgree (h : tree.AddsFiles one places) (h' : tree.AddsFiles other more) :
    one.LinksAgree other := by
  intro place entry entry' hentry hentry' target
  constructor
  · rintro rfl
    have hlink := h'.grows.link (h.link hentry)
    exact Option.some.inj (hentry'.symm.trans hlink)
  · rintro rfl
    have hlink := h.grows.link (h'.link hentry')
    exact Option.some.inj (hentry.symm.trans hlink)

variable {limit : Option Nat} {cwd place' : Place} {p : Path} {entry' : Entry}

/-- A step that both trees allow leads to the same stand. -/
theorem LinksAgree.step (h : one.LinksAgree other) {s next next' : Stand}
    (hstep : Step one .pass limit s next) (hstep' : Step other .pass limit s next') :
    next = next' := by
  cases hstep with
  | stay _ hsegment =>
    cases hstep' with
    | stay => rfl
    | up => simp at hsegment
    | follow _ hname | into _ hname =>
      obtain ⟨⟨hempty, hdot, -⟩, -⟩ := hname
      simp [hempty, hdot] at hsegment
  | up =>
    cases hstep' with
    | stay _ hsegment => simp at hsegment
    | up => rfl
    | follow _ hname | into _ hname => exact absurd rfl hname.plain.2.2
  | follow _ hname hlink =>
    cases hstep' with
    | stay _ hsegment =>
      obtain ⟨⟨hempty, hdot, -⟩, -⟩ := hname
      simp [hempty, hdot] at hsegment
    | up => exact absurd rfl hname.plain.2.2
    | follow _ _ hlink' =>
      cases (h _ _ _ hlink hlink' _).mp rfl
      rfl
    | into _ _ hentry hnot => exact absurd ((h _ _ _ hlink hentry _).mp rfl) (hnot _)
  | into _ hname hentry hnot =>
    cases hstep' with
    | stay _ hsegment =>
      obtain ⟨⟨hempty, hdot, -⟩, -⟩ := hname
      simp [hempty, hdot] at hsegment
    | up => exact absurd rfl hname.plain.2.2
    | follow _ _ hlink' => exact absurd ((h _ _ _ hentry hlink' _).mpr rfl) (hnot _)
    | into => rfl

theorem LinksAgree.steps (h : one.LinksAgree other) {s : Stand} {links links' : Nat}
    (hsteps : Steps one .pass limit s ⟨links, place, []⟩)
    (hsteps' : Steps other .pass limit s ⟨links', place', []⟩) :
    place = place' := by
  have hstop (tree : FileTree) {here : Place} {n : Nat} {next : Stand} :
      ¬ Step tree .pass limit ⟨n, here, []⟩ next := by
    intro hstep
    cases hstep
  induction hsteps using Relation.ReflTransGen.head_induction_on with
  | refl =>
    rcases hsteps'.cases_head with heq | ⟨next, hstep, -⟩
    · cases heq
      rfl
    · exact absurd hstep (hstop other)
  | head hstep _ ih =>
    rcases hsteps'.cases_head with rfl | ⟨next, hstep', hrest'⟩
    · exact absurd hstep (hstop one)
    · exact ih (h.step hstep hstep' ▸ hrest')

/-- A walk to what is there comes to its end. -/
theorem exists_steps_of_found {links : Nat} {here : Place} {segments : List String}
    (hwalk : walk tree .pass limit links here segments = .ok place)
    (hentry : tree.get? place = some entry) :
    ∃ links', Steps tree .pass limit ⟨links, here, segments⟩ ⟨links', place, []⟩ := by
  obtain ⟨s, hsteps, hends⟩ := walk_eq_ok_iff.mp hwalk
  cases hends with
  | arrived => exact ⟨_, hsteps⟩
  | missing _ _ _ hnone => cases hnone.symm.trans hentry
  | reached _ _ _ _ hreached => cases hreached

theorem LinksAgree.walk_eq (h : one.LinksAgree other) {links : Nat}
    {here : Place} {segments : List String}
    (hwalk : walk one .pass limit links here segments = .ok place)
    (hentry : one.get? place = some entry)
    (hwalk' : walk other .pass limit links here segments = .ok place')
    (hentry' : other.get? place' = some entry') :
    place = place' := by
  obtain ⟨_, hsteps⟩ := exists_steps_of_found hwalk hentry
  obtain ⟨_, hsteps'⟩ := exists_steps_of_found hwalk' hentry'
  exact h.steps hsteps hsteps'

/-- A path that leads to something in both trees leads to one place. -/
theorem LinksAgree.look_eq (h : one.LinksAgree other) (hlook : one.look cwd p = .ok (place, entry))
    (hlook' : other.look cwd p = .ok (place', entry')) : place = place' := by
  obtain ⟨hfind, hentry⟩ := look_eq_ok_iff.mp hlook
  obtain ⟨hfind', hentry'⟩ := look_eq_ok_iff.mp hlook'
  exact h.walk_eq (find_eq_ok_iff.mp hfind).2 hentry (find_eq_ok_iff.mp hfind').2 hentry'

theorem LinksAgree.canonical_eq (h : one.LinksAgree other)
    (hplace : one.canonical cwd p = .ok place) (hplace' : other.canonical cwd p = .ok place') :
    place = place' := by
  obtain ⟨-, -, hwalk, entry, hentry⟩ := canonical_eq_ok_iff.mp hplace
  obtain ⟨-, -, hwalk', entry', hentry'⟩ := canonical_eq_ok_iff.mp hplace'
  exact h.walk_eq hwalk hentry hwalk' hentry'

/-! ## What is read -/

/-- Where two trees that have grown from one both have something, they have the same, but for files
that were written. -/
theorem AddsFiles.entry_eq (h : tree.AddsFiles one places) (h' : tree.AddsFiles other places)
    (hplace : place ∉ places) (hentry : one.get? place = some entry)
    (hentry' : other.get? place = some entry') : entry = entry' := by
  by_cases hdirectory : entry = .directory
  · by_cases hdirectory' : entry' = .directory
    · rw [hdirectory, hdirectory']
    · have hwas := h'.was hentry' hdirectory' fun hmem => absurd hmem hplace
      exact Option.some.inj (hentry.symm.trans (h.elsewhere hplace hwas))
  · have hwas := h.was hentry hdirectory fun hmem => absurd hmem hplace
    exact Option.some.inj ((h'.elsewhere hplace hwas).symm.trans hentry')

variable {content' : Bytes} {runnable' : Bool} {text text' : String}

/-- Whether a file can be started is not changed by what is written to it. -/
theorem AddsFiles.runnable_eq (h : tree.AddsFiles one places) (h' : tree.AddsFiles other more)
    (hfile : one.get? place = some (.file content runnable))
    (hfile' : other.get? place = some (.file content' runnable')) : runnable = runnable' := by
  have hfirst {later : FileTree} {places : Set Place} {content : Bytes} {runnable : Bool}
      (h : tree.AddsFiles later places) (hfile : later.get? place = some (.file content runnable)) :
      (∃ before, tree.get? place = some (.file before runnable)) ∨
      tree.get? place = none ∧ runnable = false := by
    cases h place with
    | kept hsame => exact Or.inl ⟨content, hsame.symm.trans hfile⟩
    | directory _ hmade => cases hmade.symm.trans hfile
    | file _ hwritten hold =>
      cases hwritten.symm.trans hfile
      exact hold
  rcases hfirst h hfile with ⟨before, hbefore⟩ | ⟨hnone, rfl⟩ <;>
    rcases hfirst h' hfile' with ⟨before', hbefore'⟩ | ⟨hnone', rfl⟩
  · cases hbefore.symm.trans hbefore'
    rfl
  · cases hbefore.symm.trans hnone'
  · cases hnone.symm.trans hbefore'
  · rfl

theorem AddsFiles.readBytes_eq (h : tree.AddsFiles one places) (h' : tree.AddsFiles other places)
    (hspares : ∀ place entry, one.look cwd p = .ok (place, entry) → place ∉ places)
    (hread : one.readBytes cwd p = .ok content) (hread' : other.readBytes cwd p = .ok content') :
    content = content' := by
  obtain ⟨place, entry, hlook, -⟩ := look_of_readBytes hread
  obtain ⟨place', entry', hlook', -⟩ := look_of_readBytes hread'
  obtain rfl := (h.linksAgree h').look_eq hlook hlook'
  obtain rfl := h.entry_eq h' (hspares place entry hlook) (look_eq_ok_iff.mp hlook).2
    (look_eq_ok_iff.mp hlook').2
  rw [readBytes_congr hlook hlook', hread] at hread'
  exact Except.ok.inj hread'

theorem AddsFiles.readText_eq (h : tree.AddsFiles one places) (h' : tree.AddsFiles other places)
    (hspares : ∀ place entry, one.look cwd p = .ok (place, entry) → place ∉ places)
    (hread : one.readText cwd p = .ok text) (hread' : other.readText cwd p = .ok text') :
    text = text' := by
  have hbytes {tree : FileTree} {text : String} (hread : tree.readText cwd p = .ok text) :
      ∃ content, tree.readBytes cwd p = .ok content ∧ Text.decode content = some text := by
    unfold readText at hread
    cases hcontent : tree.readBytes cwd p with
    | error e =>
      rw [hcontent] at hread
      cases hread
    | ok content =>
      cases hdecode : Text.decode content with
      | none => simp [hcontent, hdecode] at hread
      | some decoded =>
        simp only [hcontent, hdecode, Except.ok.injEq] at hread
        exact ⟨content, rfl, hread ▸ hdecode⟩
  obtain ⟨content, hcontent, hdecode⟩ := hbytes hread
  obtain ⟨content', hcontent', hdecode'⟩ := hbytes hread'
  obtain rfl := h.readBytes_eq h' hspares hcontent hcontent'
  exact Option.some.inj (hdecode.symm.trans hdecode')

end Additions

end ShaderEmbed.FileTree
