import ShaderEmbed.Proofs.Fragment.Derivation
import ShaderEmbed.Proofs.Fragment.Spelling
import ShaderEmbed.Proofs.Path.Joining

/-!
# Fragments moved below a directory

A tree of fragments can be moved below a directory as a whole. A reference is read from the
directory of the fragment that holds it, which has moved along; so it names the fragment that it
named, at its new place, unless it leaves the tree (`included_moved`). A reference that leaves the
tree names nothing before the move, and may name something behind it.

What a fragment stands for is therefore what it stood for (`derives_moved`), and an entry that can
be flattened is flattened to the same text, from the sources at their new places (`flatten_moved`).
-/

namespace ShaderEmbed

namespace Path

/-- A path that is spelled by names, of which there is at least one. -/
def IsNames (p : Path) : Prop :=
  ∃ front last, (∀ name ∈ front ++ [last], Component.IsName name) ∧ p = ofNames (front ++ [last])

variable {p d : Path}

theorem isNames_of_isInside (hnormal : p.normalize = p) (hinside : p.IsInside)
    (hne : p.place ≠ []) : p.IsNames := by
  obtain ⟨names, hplace, hnames⟩ := exists_names_of_isInside hinside
  have hspelled : p = ofNames names := by rw [← hnormal, normalize, hplace, ofNames]
  rcases List.eq_nil_or_concat names with rfl | ⟨front, last, rfl⟩
  · rw [hplace] at hne
    exact absurd rfl hne
  · rw [List.concat_eq_append] at hnames hspelled
    exact ⟨front, last, hnames, hspelled⟩

theorem IsNames.isInside (h : p.IsNames) : p.IsInside := by
  obtain ⟨front, last, hnames, rfl⟩ := h
  exact isInside_ofNames hnames

/-- Names that are joined to names are as they are spelled. -/
theorem same_normalize_join {names : List String} (hd : d.components = names.map .name)
    (h : p.IsNames) :
    (d.join p).normalize.same (d.join p) = true := by
  obtain ⟨front, last, hlast, rfl⟩ := h
  rw [same, decide_eq_true_iff, components_normalize,
    place_join_of_isInside d (isInside_ofNames hlast), place_of_names hd, place_ofNames hlast,
      components_join_ofNames d hlast (by simp), hd]

/-- The directory of a path moves along with the path. -/
theorem parent_moved (hd : d.IsInside) (hp : p.IsNames) :
    ∃ directory moved, p.parent = some directory ∧ (d.join p).normalize.parent = some moved ∧
      .root ∉ directory.place ∧
      moved.place = d.place ++ directory.place := by
  obtain ⟨front, last, hlast, rfl⟩ := hp
  obtain ⟨names, hplace, hnames⟩ := exists_names_of_isInside hd
  have hfront : ∀ name ∈ front, Component.IsName name :=
    fun name hname => hlast name (List.mem_append_left _ hname)
  have hall : ∀ name ∈ names ++ front ++ [last], Component.IsName name := by
    intro name hname
    rw [List.append_assoc, List.mem_append] at hname
    exact hname.elim (hnames name) (hlast name)
  have hmoved : (d.join (ofNames (front ++ [last]))).normalize =
      ofNames (names ++ front ++ [last]) := by
    rw [normalize, place_join_of_isInside d (isInside_ofNames hlast), hplace, place_ofNames hlast,
      ofNames, List.append_assoc, ← List.map_append]
  refine ⟨ofNames front, ofNames (names ++ front), parent_ofNames hlast, ?_, ?_, ?_⟩
  · rw [hmoved, parent_ofNames hall]
  · simp [place_ofNames hfront]
  · rw [place_ofNames fun name hname => hall name (List.mem_append_left _ hname),
      place_ofNames hfront, hplace, List.map_append]

end Path

/-- What a directive of a fragment names moves along with the fragment, unless it is outside. -/
theorem included_moved {p d : Path} {reference : String} (hd : d.IsInside) (hp : p.IsNames)
    (h : (included p reference).IsInside) :
    included (d.join p).normalize reference = (d.join (included p reference)).normalize := by
  obtain ⟨directory, moved, hparent, hmoved, hroot, hplace⟩ := Path.parent_moved hd hp
  have hbefore : included p reference = (directory.join ⟨reference⟩).normalize := by
    rw [included, hparent, Option.getD_some]
  have hafter : included (d.join p).normalize reference = (moved.join ⟨reference⟩).normalize := by
    rw [included, hmoved, Option.getD_some]
  have hinside : (directory.join ⟨reference⟩).IsInside := by
    rwa [hbefore, Path.IsInside, Path.place_normalize] at h
  have hrelative : (Path.mk reference).isAbsolute = false := by
    by_contra habsolute
    rw [Bool.not_eq_false] at habsolute
    rw [Path.join_of_isAbsolute habsolute] at hinside
    exact absurd (hinside.not_isAbsolute.symm.trans habsolute) Bool.false_ne_true
  rw [hafter]
  apply Path.normalize_eq_of_place_eq
  rw [Path.place_join_append hplace hroot hinside hrelative, Path.place_join_of_isInside d h,
    hbefore, Path.place_normalize]

namespace FragmentMap

variable {fragments moved : FragmentMap} {marker text : String} {p d : Path} {sources : List Path}
  {inserts : List (Path × String)}

/-- All fragments are inside, and below a directory there are the same fragments. -/
structure MovedInto (fragments : FragmentMap) (d : Path) (moved : FragmentMap) : Prop where
  inside : ∀ p content, fragments.get? p = some content → p.IsInside ∧ p.place ≠ []
  found : ∀ p, p.IsInside → moved.get? (d.join p) = fragments.get? p

theorem movedInto_ofList (h : ∀ added ∈ inserts, added.1.IsInside ∧ added.1.place ≠ []) (d : Path) :
    MovedInto (ofList inserts) d (ofList (inserts.map fun added => (d.join added.1, added.2))) where
  inside := by
    intro p content hget
    have hkey : p.place ∈ (ofList inserts).keys := mem_keys_of_lookup hget
    rw [mem_keys_ofList] at hkey
    obtain ⟨added, hadded, hplace⟩ := List.mem_map.mp hkey
    obtain ⟨hinside, hne⟩ := h added hadded
    rw [← hplace]
    refine ⟨fun c hc => hinside c ?_, hne⟩
    rw [hplace, hc]
  found := by
    intro p hp
    induction inserts using List.reverseRecOn with
    | nil => simp [ofList, get?, empty]
    | append_singleton inserts last ih =>
      have hlast : last.1.IsInside := (h last (by simp)).1
      have hearlier := ih fun added hadded => h added (List.mem_append_left _ hadded)
      rw [List.map_append, List.map_singleton, ofList_append_singleton, ofList_append_singleton,
        get?_insert, get?_insert, Path.place_join_of_isInside d hp,
          Path.place_join_of_isInside d hlast, hearlier]
      simp only [List.append_cancel_left_eq]

theorem MovedInto.isNames (h : MovedInto fragments d moved) (hnormal : p.normalize = p)
    (hderives : fragments.Derives marker p text sources) : p.IsNames := by
  obtain ⟨content, -, hget, -, -⟩ := derives_iff.mp hderives
  obtain ⟨hinside, hne⟩ := h.inside p content hget
  exact Path.isNames_of_isInside hnormal hinside hne

/-- A fragment stands for the same text after the move, and for the sources at their new places. -/
theorem derives_moved (h : MovedInto fragments d moved) (hd : d.IsInside)
    (hderives : fragments.Derives marker p text sources) (hnormal : p.normalize = p) :
    moved.Derives marker (d.join p).normalize text (sources.map fun q => (d.join q).normalize) ∧
      ∀ q ∈ sources, q.IsNames := by
  refine Derives.induct
    (P := fun p text sources => p.normalize = p →
      moved.Derives marker (d.join p).normalize text (sources.map fun q => (d.join q).normalize) ∧
        ∀ q ∈ sources, q.IsNames)
    (Q := fun p lines text sources => p.IsNames →
      moved.DerivesLines marker (d.join p).normalize lines text
        (sources.map fun q => (d.join q).normalize) ∧
        ∀ q ∈ sources, q.IsNames) ?_ ?_ ?_ ?_ hderives hnormal
  · intro p content text pieces sources hget hcut hlines ih hnormal
    have hp : p.IsNames := h.isNames hnormal (.fragment hget hcut hlines)
    obtain ⟨hmoved, hsources⟩ := ih hp
    have hfound : moved.get? (d.join p).normalize = some content := by
      rw [get?, Path.place_normalize, ← get?, h.found p hp.isInside, hget]
    exact ⟨.fragment hfound hcut hmoved, List.forall_mem_cons.mpr ⟨hp, hsources⟩⟩
  · intro p _
    exact ⟨.nil, by simp⟩
  · intro p line text rest sources hline _ ih hp
    obtain ⟨hmoved, hsources⟩ := ih hp
    exact ⟨.ordinary hline hmoved, hsources⟩
  · intro p line reference text restText rest sources restSources hline hsub _ ihsub ihrest hp
    obtain ⟨hfirst, hsources⟩ := ihsub (Path.normalize_normalize _)
    obtain ⟨hlater, hrestSources⟩ := ihrest hp
    have hincluded : (included p reference).IsNames := h.isNames (Path.normalize_normalize _) hsub
    -- the directive names the fragment at its new place
    rw [← included_moved hd hp hincluded.isInside] at hfirst
    rw [List.map_append]
    refine ⟨.directive hline hfirst hlater, ?_⟩
    intro q hq
    exact (List.mem_append.mp hq).elim (hsources q) (hrestSources q)

/-- A tree of fragments can be moved. Where all fragments are added below a directory of names, with
their contents, an entry that was flattened is flattened below the directory to the same text, and
its sources are the former ones below the directory, in the same order. -/
theorem flatten_moved {entry : Path} {flat : Flattened} {names : List String}
    (hinserts : ∀ added ∈ inserts, added.1.IsInside ∧ added.1.place ≠ [])
    (hd : d.components = names.map .name)
    (h : ((ofList inserts).source.flatten marker entry).result = .ok flat) :
    ((ofList (inserts.map fun added => (d.join added.1, added.2))).source.flatten marker
      (d.join entry)).result =
        .ok ⟨flat.text, flat.sources.map fun p => (d.join p).normalize⟩ ∧
      ∀ p ∈ flat.sources, (d.join p).normalize.same (d.join p) := by
  have hderives := derives_of_expand h
  obtain ⟨hmoved, hsources⟩ := derives_moved (movedInto_ofList hinserts d)
    (Path.isInside_of_names hd) hderives entry.normalize_normalize
  rw [Path.normalize_join_congr d entry.normalize_normalize] at hmoved
  exact ⟨flatten_of_derives hmoved, fun p hp => Path.same_normalize_join hd (hsources p hp)⟩

/-- A tree in which one directory refers to another. -/
def neighbours : List (Path × String) :=
  [(⟨"s/main"⟩, "#include ../t/./a\nm\n"), (⟨"t/u/../a"⟩, "a\n")]

theorem flatten_moved_neighbours :
    ((ofList neighbours).source.flatten standardMarker ⟨"s/main"⟩).result =
      .ok ⟨"a\nm\n", [⟨"s/main"⟩, ⟨"t/a"⟩]⟩ ∧
    ((ofList [(⟨"x//y/s/main"⟩, "#include ../t/./a\nm\n"),
      (⟨"x//y/t/u/../a"⟩, "a\n")]).source.flatten standardMarker
      ⟨"x//y/s/main"⟩).result = .ok ⟨"a\nm\n", [⟨"x/y/s/main"⟩, ⟨"x/y/t/a"⟩]⟩ := by
  have hafter : (ofList neighbours).source.reader.after standardMarker ⟨"s/main"⟩ 7 =
      .running ⟨[⟨[⟨[.name "s", .name "main"], ⟨"s/main"⟩⟩], ⟨"t/a"⟩⟩], "a\nm\n",
        [⟨"s/main"⟩, ⟨"t/a"⟩], [], none⟩ :=
    Progress.eq_running_of_moment? (by decide +kernel)
  have hflat := FragmentSource.result_flatten_of_after hafter
  have hinserts : ∀ added ∈ neighbours, added.1.IsInside ∧ added.1.place ≠ [] := by
    have hnames : ∀ added ∈ neighbours, added.1.place.head? = some (.name "s") ∨
        added.1.place.head? = some (.name "t") := by
      decide +kernel
    intro added hadded
    refine ⟨?_, ?_⟩
    · intro c hc
      rcases hnames added hadded with hname | hname <;> cases hname.symm.trans hc <;> simp
    · intro hempty
      rcases hnames added hadded with hname | hname <;> simp [hempty] at hname
  have hd : (Path.mk "x//y").components = ["x", "y"].map .name := by decide +kernel
  obtain ⟨hmoved, -⟩ := flatten_moved hinserts hd hflat
  exact ⟨hflat, hmoved⟩

end FragmentMap

end ShaderEmbed
