import ShaderEmbed.Proofs.File.Additions
import ShaderEmbed.Proofs.Fragment.Reads
import ShaderEmbed.Proofs.Fragment.Unfolding

/-!
# Sources that agree

Where a tree has grown and has kept what some paths lead to, its files agree with what they were
(`FragmentSource.agrees_ofDirectory`), and an entry that was flattened from them is flattened to the
same again.

One source may have what another lacks. If both flatten an entry, and have the same where both have
anything, they flatten it to the same (`FragmentSource.flatten_of_coincides`).
-/

namespace ShaderEmbed

namespace FragmentSource

variable {source other : FragmentSource} {marker : String} {entry : Path} {m later later' : Moment}
  {sources : List Path}

/-- Another source identifies the fragments at some paths as this one does, and has the same text
for them, where both of them have any. -/
structure Coincides (source other : FragmentSource) (sources : List Path) : Prop where
  identity : ∀ p ∈ sources, ∀ id id', source.identity p = .ok id →
    other.identity p = .ok id' → id = id'
  read : ∀ p ∈ sources, ∀ text text', source.read p = .ok text →
    other.read p = .ok text' → text = text'

theorem Coincides.of_subset {fewer : List Path} (h : source.Coincides other sources)
    (hsub : fewer ⊆ sources) :
    source.Coincides other fewer :=
  ⟨fun p hp => h.identity p (hsub hp), fun p hp => h.read p (hsub hp)⟩

/-- Two steps that go on from one moment come to the same. -/
theorem step_of_coincides (h : source.reader.step marker m = .running later)
    (h' : other.reader.step marker m = .running later')
    (hcoincides : source.Coincides other later.sources) :
    later = later' := by
  have hsources := FragmentReader.sources_of_step h
  cases hnext : m.next with
  | none =>
    rw [FragmentReader.step_of_next_none source.reader hnext, h'] at h
    cases h
    rfl
  | some path =>
    have hmem : path ∈ later.sources := by
      rw [hsources, hnext]
      simp
    simp only [FragmentReader.step, hnext] at h h'
    obtain ⟨id, text, hid, -, hread, rfl⟩ := FragmentReader.exists_of_enter_eq_running h
    obtain ⟨id', text', hid', -, hread', rfl⟩ := FragmentReader.exists_of_enter_eq_running h'
    obtain rfl := hcoincides.identity path hmem id id' hid hid'
    obtain rfl := hcoincides.read path hmem text text' hread hread'
    rfl

/-- As long as a run over one source goes on, a run that succeeds over another is with it. -/
theorem after_of_coincides {steps : Nat} {flat : Flattened}
    (hother : (other.flatten marker entry).result = .ok flat)
    (h : source.reader.after marker entry steps = .running m)
    (hcoincides : source.Coincides other m.sources) :
    other.reader.after marker entry steps = .running m := by
  induction steps generalizing m with
  | zero => exact h
  | succ steps ih =>
    rw [FragmentReader.after_succ] at h
    cases hbefore : source.reader.after marker entry steps with
    | ended attempt =>
      rw [hbefore] at h
      cases h
    | running before =>
      rw [hbefore] at h
      have hsub : before.sources ⊆ m.sources := by
        rw [FragmentReader.sources_of_step h]
        exact List.subset_append_left _ _
      have hafter := ih hbefore (hcoincides.of_subset hsub)
      rw [FragmentReader.after_succ, hafter]
      cases hstep : other.reader.step marker before with
      | running later => rw [step_of_coincides h hstep hcoincides]; exact hstep
      | ended attempt =>
        -- It would end with success, and so without a fragment to enter; but then the first run
        -- ends with it.
        have hends : other.reader.EndsBehind marker entry before attempt := ⟨steps, hafter, hstep⟩
        obtain ⟨last, hlast⟩ := hends.after_ended
        rw [flatten_eq_of_after hlast] at hother
        have hnone := (hends.eq_of_ok hother).1
        cases h.symm.trans ((FragmentReader.step_of_next_none _ hnone).trans hstep)

/-- Two sources that both flatten an entry flatten it to the same, if they coincide on the fragments
of one result. -/
theorem flatten_of_coincides {flat flat' : Flattened}
    (h : (source.flatten marker entry).result = .ok flat)
    (h' : (other.flatten marker entry).result = .ok flat')
    (hcoincides : source.Coincides other flat.sources) : flat = flat' := by
  obtain ⟨m, hm⟩ := source.exists_endsBehind_flatten marker entry
  obtain ⟨hnone, hsources⟩ := hm.eq_of_ok h
  obtain ⟨steps, hrunning, hended⟩ := hm
  have hafter := after_of_coincides h' hrunning (hsources ▸ hcoincides)
  have hsame := flatten_eq_of_after_running hended hafter fun p hp => by cases hnone.symm.trans hp
  rw [hsame, h] at h'
  exact Except.ok.inj h'

end FragmentSource

/-- Files that a growing tree keeps agree with what they were. -/
theorem FragmentSource.agrees_ofDirectory {tree later : FileTree} {cwd : Place}
    {root : Path} {sources : List Path} (hgrows : tree.Grows later)
    (hkeeps : ∀ source ∈ sources, tree.Keeps later cwd (root.join source)) :
    (ofDirectory tree cwd root).Agrees (ofDirectory later cwd root) sources where
  identity p hp id hid := by
    obtain ⟨place, hplace, rfl⟩ := exists_of_map_eq_ok (eq_ok_of_mapError hid)
    simp only [ofDirectory, hgrows.canonical hplace]
    rfl
  read p hp text hread := by
    simp only [ofDirectory, hgrows.readText_of_keeps (hkeeps p hp) (eq_ok_of_mapError hread)]
    rfl

/-- The files of two trees that have grown from one coincide, but for files that were written. -/
theorem FragmentSource.coincides_ofDirectory {tree one other : FileTree} {places : Set Place}
    {cwd : Place} {root : Path} {sources : List Path} (h : tree.AddsFiles one places)
    (h' : tree.AddsFiles other places)
    (hspares : ∀ source ∈ sources, ∀ place entry, one.look cwd (root.join source) =
      .ok (place, entry) → place ∉ places) :
    (ofDirectory one cwd root).Coincides (ofDirectory other cwd root) sources where
  identity p hp id id' hid hid' := by
    obtain ⟨place, hplace, rfl⟩ := exists_of_map_eq_ok (eq_ok_of_mapError hid)
    obtain ⟨place', hplace', rfl⟩ := exists_of_map_eq_ok (eq_ok_of_mapError hid')
    rw [(h.linksAgree h').canonical_eq hplace hplace']
  read p hp text text' hread hread' :=
    h.readText_eq h' (hspares p hp) (eq_ok_of_mapError hread) (eq_ok_of_mapError hread')

end ShaderEmbed
