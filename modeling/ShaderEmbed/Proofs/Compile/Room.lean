import Mathlib.Algebra.Group.Nat.Defs
import Mathlib.Data.List.Nodup
import Mathlib.Data.List.Perm.Subperm
import Mathlib.Tactic.Push
import ShaderEmbed.Proofs.Compile.Scratch

/-!
# Room for a scratch directory

Where one scratch directory could be made, another can be made later, if a name is still free. There
are `nameCount` names, no two of them alike (`numbered_injective`), so that the search for a free one
finds it (`exists_free`). `Scratch.Parent` says that a path leads to a directory under any name,
which a growing tree keeps (`Parent.mono`); every scratch directory has a parent
(`Opened.exists_parent`), and under a parent another one is made (`Parent.make`).
-/

namespace ShaderEmbed

open FileTree

namespace Scratch

/-! ## The names -/

theorem utf8ByteSize_ofList_eq_length {s : List Char} (h : ∀ c ∈ s, c.utf8Size = 1) :
    (String.ofList s).utf8ByteSize = s.length := by
  induction s with
  | nil => rfl
  | cons c rest ih =>
    obtain ⟨hc, hrest⟩ := List.forall_mem_cons.mp h
    rw [← List.singleton_append, String.ofList_append, String.utf8ByteSize_append, ih hrest,
      ← String.singleton_eq_ofList, String.utf8ByteSize_singleton, hc,
        List.length_append, List.length_singleton]

namespace Name

theorem text_injective : Function.Injective Name.text := by
  intro name other h
  have hlist := congrArg String.toList h
  rw [toList_text, toList_text, List.append_cancel_left_eq] at hlist
  cases name
  cases other
  cases hlist
  rfl

/-- All names are equally long. -/
theorem utf8ByteSize_text (name : Name) : name.text.utf8ByteSize = 16 := by
  have hall : alphabet.all fun c => c.utf8Size = 1 := by decide +kernel
  have hletter : ∀ c ∈ alphabet, c.utf8Size = 1 := by simpa using hall
  rw [text, String.utf8ByteSize_append,
    utf8ByteSize_ofList_eq_length fun c hc => hletter c (name.mem_alphabet c hc), name.length_code]
  rfl

end Name

/-! ## Numbers of names -/

def nameCount : Nat := 62 ^ 6

theorem nodup_alphabet : alphabet.Nodup := by decide +kernel

theorem getD_alphabet {i : Nat} (h : i < alphabet.length) : alphabet.getD i 'X' = alphabet[i] := by
  rw [List.getD_eq_getElem?_getD, List.getElem?_eq_getElem h, Option.getD_some]

/-- Each number below 62 stands for a letter of its own, -/
theorem idxOf_getD_alphabet {i : Nat} (h : i < 62) : alphabet.idxOf (alphabet.getD i 'X') = i := by
  have hlt : i < alphabet.length := h
  rw [getD_alphabet hlt, nodup_alphabet.idxOf_getElem]

/-- and each letter has a number. -/
theorem getD_idxOf_alphabet {c : Char} (h : c ∈ alphabet) :
    alphabet.idxOf c < 62 ∧ alphabet.getD (alphabet.idxOf c) 'X' = c := by
  have hlt : alphabet.idxOf c < alphabet.length := List.idxOf_lt_length_iff.mpr h
  exact ⟨hlt, by rw [getD_alphabet hlt, List.getElem_idxOf]⟩

theorem numeral_injective {count n m : Nat} (hn : n < 62 ^ count) (hm : m < 62 ^ count)
    (h : numeral count n = numeral count m) : n = m := by
  induction count generalizing n m with
  | zero =>
    rw [Nat.pow_zero, Nat.lt_one_iff] at hn hm
    rw [hn, hm]
  | succ count ih =>
    obtain ⟨hfront, hlast⟩ := List.append_inj' h rfl
    have hdiv : n / 62 = m / 62 := ih (by omega) (by omega) hfront
    have hmod : n % 62 = m % 62 := by
      rw [← idxOf_getD_alphabet (Nat.mod_lt n (by decide)), List.singleton_inj.mp hlast,
        idxOf_getD_alphabet (Nat.mod_lt m (by decide))]
    omega

theorem exists_numeral {count : Nat} {code : List Char} (hlength : code.length = count)
    (hcode : ∀ c ∈ code, c ∈ alphabet) : ∃ n < 62 ^ count, numeral count n = code := by
  induction count generalizing code with
  | zero => exact ⟨0, by decide, (List.length_eq_zero_iff.mp hlength).symm⟩
  | succ count ih =>
    obtain ⟨front, last, rfl⟩ : ∃ front last, code = front ++ [last] := by
      rcases List.eq_nil_or_concat code with rfl | ⟨front, last, hconcat⟩
      · cases hlength
      · exact ⟨front, last, by rw [hconcat, List.concat_eq_append]⟩
    rw [List.forall_mem_append, List.forall_mem_singleton] at hcode
    obtain ⟨n, hn, hfront⟩ := ih (by simpa using hlength) hcode.1
    obtain ⟨hi, hlast⟩ := getD_idxOf_alphabet hcode.2
    refine ⟨n * 62 + alphabet.idxOf last, by omega, ?_⟩
    rw [numeral, show (n * 62 + alphabet.idxOf last) / 62 = n by omega,
      show (n * 62 + alphabet.idxOf last) % 62 = alphabet.idxOf last by omega, hfront, hlast]

theorem numbered_injective {n m : Nat} (hn : n < nameCount) (hm : m < nameCount)
    (h : numbered n = numbered m) :
    n = m :=
  numeral_injective hn hm (congrArg Name.code h)

/-- Every name has a number. -/
theorem exists_numbered (name : Name) : ∃ n < nameCount, numbered n = name := by
  obtain ⟨n, hn, hcode⟩ := exists_numeral name.length_code name.mem_alphabet
  refine ⟨n, hn, ?_⟩
  cases name
  cases hcode
  rfl

/-- Counting comes to a free name, if there is one: a tree that holds fewer things than are tried
cannot hold all of them. -/
theorem exists_free {tree : FileTree} {above : Place} {free : Name}
    (hfree : tree.get? (above ++ [free.text]) = none) :
    ∃ n ∈ List.range (tree.entries.length + 1),
      tree.get? (above ++ [(numbered n).text]) = none := by
  obtain ⟨number, hnumber, rfl⟩ := exists_numbered free
  by_contra hall
  push Not at hall
  have hlt : tree.entries.length + 1 ≤ number := by
    by_contra hlt
    exact hall number (List.mem_range.mpr (by omega)) hfree
  have hnodup : ((List.range (tree.entries.length + 1)).map fun n => above ++
      [(numbered n).text]).Nodup := by
    refine List.Nodup.map_on ?_ List.nodup_range
    intro n hn m hm heq
    rw [List.mem_range] at hn hm
    have htext := List.singleton_inj.mp (List.append_cancel_left heq)
    exact numbered_injective (by omega) (by omega) (Name.text_injective htext)
  have hsubset : ((List.range (tree.entries.length + 1)).map fun n => above ++
      [(numbered n).text]) ⊆ tree.places := by
    intro place hplace
    obtain ⟨n, hn, rfl⟩ := List.mem_map.mp hplace
    obtain ⟨entry, hentry⟩ := Option.ne_none_iff_exists'.mp (hall n hn)
    exact mem_places_of_get? hentry (by simp)
  have hle := (hnodup.subperm hsubset).length_le
  rw [places, List.length_map, List.length_map, List.length_range] at hle
  omega

/-! ## Parents -/

/-- A path under which any name leads one step on from a directory, and is short enough if it is a
scratch name. -/
structure Parent (world : World) (parent : Path) (above : Place) : Prop where
  directory : world.tree.get? above = some .directory
  leads : ∀ ending name, Component.IsName name → ∃ links,
    Steps world.tree ending none ⟨linkLimit, startOf world.cwd (parent.child name),
      (route (parent.child name)).2⟩ ⟨links, above, [name]⟩
  spellable : ∀ n : Name, IsSpellable (parent.child n.text)
  outside : ¬ processes <+: above

section

variable {world : World} {parent : Path} {above : Place} {later : FileTree}

theorem Parent.mono (h : Parent world parent above) (hgrows : world.tree.Grows later) :
    Parent (world.withTree later) parent above where
  directory := hgrows.directory h.directory
  leads ending name hname := by
    obtain ⟨links, hsteps⟩ := h.leads ending name hname
    exact ⟨links, hsteps.mono hgrows⟩
  spellable := h.spellable
  outside := h.outside

theorem Parent.find_eq (h : Parent world parent above) {ending : FileTree.Ending}
    (hreached : ending.isReached [] = true) (n : Name) :
    find world.tree ending world.cwd (parent.child n.text) = .ok (above ++ [n.text]) := by
  obtain ⟨links, hsteps⟩ := h.leads ending n.text n.isName
  obtain ⟨hempty, hdot, hdots, -⟩ := n.isName
  have hshort : n.text.utf8ByteSize ≤ nameLimit := by
    rw [n.utf8ByteSize_text]
    decide
  rw [find_eq_ok_iff, walk_of_steps hsteps,
    walk_name_eq_ok_iff ⟨hempty, hdot, hdots⟩ h.directory (Or.inl hreached), nameFault?_eq_none_iff]
  exact ⟨h.spellable n, ⟨by simp, hshort, by simp⟩, rfl⟩

/-! ## Drawing names -/

/-- Under a directory where a name is free, a free name is drawn. -/
def DrawsFree (tools : Toolbox) : Prop :=
  ∀ {world : World} {parent : Path} {above : Place}, Parent world parent above →
    (∃ n : Name, world.tree.get? (above ++ [n.text]) = none) →
      world.tree.get? (above ++ [(tools.draw world.tree world.cwd parent).text]) = none

/-- The first name that is free is free. -/
theorem drawsFree_of_counted {tools : Toolbox} (hcounted : tools.draw = counted) :
    DrawsFree tools := by
  rintro world parent above hparent ⟨free, hfree⟩
  obtain ⟨m, hm, hfree⟩ := exists_free hfree
  have hfind (n : Name) : find world.tree .stop world.cwd (parent.child n.text) =
      .ok (above ++ [n.text]) :=
    hparent.find_eq rfl n
  have htaken (n : Name) : isTaken world.tree world.cwd parent n =
      (world.tree.get? (above ++ [n.text])).isSome := by
    rw [isTaken, hfind]
    rfl
  rw [hcounted, counted]
  simp only [htaken]
  cases hfind : (List.range (world.tree.entries.length + 1)).find?
      fun n => !(world.tree.get? (above ++ [(numbered n).text])).isSome with
  | none => exact absurd (List.find?_eq_none.mp hfind m hm) (by simp [hfree])
  | some n => simpa using List.find?_some hfind

/-- Free names are drawn where there are some, and two are free in every directory: one for a copy,
and one for the output that it is compiled to. -/
structure HasRoom (tools : Toolbox) (tree : FileTree) : Prop where
  draws : DrawsFree tools
  free : ∀ above : Place, ∃ n m : Name, n ≠ m ∧ tree.get? (above ++ [n.text]) = none ∧
    tree.get? (above ++ [m.text]) = none

namespace HasRoom

variable {tools : Toolbox} {tree other : FileTree}

theorem alike (h : HasRoom tools tree) (halike : tree.Alike other) : HasRoom tools other where
  draws := h.draws
  free above := by simpa only [halike _] using h.free above

theorem exists_one (h : HasRoom tools tree) (above : Place) :
    ∃ n : Name, tree.get? (above ++ [n.text]) = none := by
  obtain ⟨n, m, -, hn, -⟩ := h.free above
  exact ⟨n, hn⟩

/-- One of the two names is left when another is taken. -/
theorem exists_other (h : HasRoom tools tree) (above : Place) (taken : Name) :
    ∃ n : Name, n ≠ taken ∧ tree.get? (above ++ [n.text]) = none := by
  obtain ⟨n, m, hne, hfree, hfree'⟩ := h.free above
  by_cases heq : n = taken
  · exact ⟨m, fun heq' => hne (heq.trans heq'.symm), hfree'⟩
  · exact ⟨n, heq, hfree⟩

end HasRoom

/-! ## Renaming -/

/-- What can be spelled with a scratch name can be spelled with another. -/
theorem isSpellable_renamed {front back : String} {n : Name}
    (h : IsSpellable ⟨front ++ n.text ++ back⟩) (m : Name) :
    IsSpellable ⟨front ++ m.text ++ back⟩ := by
  obtain ⟨hzero, -, hshort⟩ := h
  have hletters : '\x00' ∉ m.text.toList := by
    rw [m.toList_text, List.mem_append, not_or]
    exact ⟨by decide, fun hmem => absurd (m.mem_alphabet _ hmem) (by decide)⟩
  refine ⟨?_, ?_, ?_⟩
  · simp only [String.toList_append, List.mem_append, not_or] at hzero ⊢
    exact ⟨⟨hzero.1.1, hletters⟩, hzero.2⟩
  · intro hempty
    have hsize : (front ++ m.text ++ back).utf8ByteSize = 0 :=
      congrArg (fun p : Path => p.text.utf8ByteSize) hempty
    rw [String.utf8ByteSize_append, String.utf8ByteSize_append, Name.utf8ByteSize_text] at hsize
    omega
  · rw [String.utf8ByteSize_append, String.utf8ByteSize_append, Name.utf8ByteSize_text] at hshort ⊢
    exact hshort

theorem isSpellable_child_name {n : Name} (h : IsSpellable (parent.child n.text)) (m : Name) :
    IsSpellable (parent.child m.text) := by
  obtain ⟨front, hfront⟩ := parent.exists_child_eq
  rw [hfront _ n.isName.2.2.2, ← String.append_empty (s := front ++ n.text)] at h
  rw [hfront _ m.isName.2.2.2, ← String.append_empty (s := front ++ m.text)]
  exact isSpellable_renamed h m

/-- What can be spelled in one scratch directory can be spelled in another. -/
theorem isSpellable_child_child {n : Name} {below : String} (hbelow : Component.IsName below)
    (h : IsSpellable ((parent.child n.text).child below)) (m : Name) :
    IsSpellable ((parent.child m.text).child below) := by
  obtain ⟨front, hfront⟩ := parent.exists_child_eq
  have hspelled (k : Name) : (parent.child k.text).child below =
      ⟨front ++ k.text ++ ("/" ++ below)⟩ := by
    rw [(parent.child_child_eq k.isName hbelow.2.2.2).2, hfront _ k.isName.2.2.2, Path.slash,
      String.append_assoc]
  rw [hspelled] at h ⊢
  exact isSpellable_renamed h m

/-- What is written in one scratch directory can be written in another. -/
theorem Opened.exists_written {chosen chosen' : Option Path} {other : World}
    {place place' : Place} {n m : Name} {below : String} {content : Bytes} {written : FileTree}
    (h : Opened world chosen (parent.child n.text) place)
    (hclosed : world.tree.IsClosed) (h' : Opened other chosen' (parent.child m.text) place')
    (hclosed' : other.tree.IsClosed) (hbelow : Component.IsName below)
    (hwrite : (inside world place).writeBytes world.cwd
      ((parent.child n.text).child below) content = .ok written) :
    ∃ written',
      (inside other place').writeBytes other.cwd ((parent.child m.text).child below) content =
        .ok written' := by
  obtain ⟨⟨hspellable, hshort⟩, -⟩ := (h.writeBytes_eq_ok_iff hclosed hbelow).mp hwrite
  exact ⟨_, (h'.writeBytes_eq_ok_iff hclosed' hbelow).mpr
    ⟨⟨isSpellable_child_child hbelow hspellable m, hshort⟩, rfl⟩⟩

/-- Under a parent with a free name a scratch directory is made. -/
theorem Parent.make (h : Parent world parent above) (hclosed : world.tree.IsClosed)
    (hdraws : DrawsFree world.tools)
    (hfree : ∃ n : Name, world.tree.get? (above ++ [n.text]) = none)
    {chosen : Option Path} (hchosen : Scratch.parent world chosen = .ok parent) :
    ∃ n : Name, Opened world chosen (parent.child n.text) (above ++ [n.text]) ∧
      Scratch.make chosen world =
        ⟨[], world.withTree (inside world (above ++ [n.text])),
          .ok (parent.child n.text, above ++ [n.text])⟩ := by
  obtain ⟨n, hn⟩ : ∃ n, world.tools.draw world.tree world.cwd parent = n := ⟨_, rfl⟩
  have hfree : world.tree.get? (above ++ [n.text]) = none := hn ▸ hdraws h hfree
  have hfind : find world.tree .name world.cwd (parent.child n.text) = .ok (above ++ [n.text]) :=
    h.find_eq rfl n
  have houtside : ¬ processes <+: above ++ [n.text] := by
    intro hunder
    rcases List.prefix_concat_iff.mp hunder with heq | hunder
    · -- a scratch name is longer than that of the system's own directory
      have hlast : some "proc" = some n.text := by
        simpa [processes] using congrArg List.getLast? heq
      have hsize := congrArg String.utf8ByteSize (Option.some.inj hlast)
      rw [Name.utf8ByteSize_text] at hsize
      exact absurd hsize (by decide)
    · exact h.outside hunder
  have hfree' := isFree_of_missing h.directory hfree
  have hmade : world.tree.makeDirectory world.cwd (parent.child n.text) =
      .ok (inside world (above ++ [n.text])) :=
    hclosed.makeDirectory_eq_ok_iff.mpr ⟨_, hfind, hfree', houtside, rfl⟩
  have hfresh : fresh world chosen = .ok (parent.child n.text) := by
    rw [fresh, hchosen, Except.map, hn]
  refine ⟨n, ⟨⟨parent, n, hchosen, rfl⟩, hfind, hfree', houtside⟩, ?_⟩
  simp only [Scratch.make, hfresh, hfind, hmade]
  rfl

/-- Every scratch directory has a parent. -/
theorem Opened.exists_parent {chosen : Option Path} {path : Path} {place : Place}
    (h : Opened world chosen path place) :
    ∃ (parent : Path) (above : Place) (n : Name), Scratch.parent world chosen = .ok parent ∧
      Parent world parent above ∧ path = parent.child n.text ∧ place = above ++ [n.text] := by
  obtain ⟨parent, n, hchosen, rfl⟩ := h.named
  obtain ⟨fromRoot, front, hroute⟩ := parent.exists_route_join
  have hchild {name : String} (hname : Component.IsName name) :
      route (parent.child name) = (fromRoot, front ++ [name]) := by
    obtain ⟨hhead, htail⟩ := Path.head_of_isName hname.2.2.2
    rw [Path.child, hroute _ (Path.not_isAbsolute_of_notMem hname.2.2.2), hhead, htail]
  obtain ⟨hspellable, hwalk⟩ := find_eq_ok_iff.mp h.found
  have hplain : IsPlain n.text := ⟨n.isName.1, n.isName.2.1, n.isName.2.2.1⟩
  rw [hchild n.isName] at hwalk
  obtain ⟨links, above, hsteps, hlast⟩ := exists_of_walk_name hplain.1 hwalk
  have hdirectory := directory_of_walk_cons hlast
  obtain ⟨-, rfl⟩ := (walk_name_eq_ok_iff hplain hdirectory (Or.inl rfl)).mp hlast
  refine ⟨parent, above, n, hchosen,
    ⟨hdirectory, fun ending below hbelow => ⟨links, ?_⟩, fun m => ?_, ?_⟩, rfl, rfl⟩
  · have hstart : startOf world.cwd (parent.child below) =
        startOf world.cwd (parent.child n.text) := by
      simp only [startOf, hchild hbelow, hchild n.isName]
    have hname : HasName [below] := ⟨below, List.mem_singleton_self _, hbelow.1⟩
    rw [hstart, hchild hbelow]
    have hbefore : Steps world.tree ending none _ _ := hsteps.before hname
    simpa only [Stand.before, List.nil_append] using hbefore
  · exact isSpellable_child_name hspellable m
  · exact fun hunder => h.outside (hunder.trans (List.prefix_append _ _))

theorem parent_root (world : World) : Parent world ⟨"/"⟩ [] := by
  have hroute {name : String} (hname : Component.IsName name) : route ((Path.mk "/").child name) =
      (true, [name]) := by
    have hspelled : (Path.mk "/").child name = Path.empty.slash ⟨name⟩ := by
      simp [Path.child, Path.join, Path.not_isAbsolute_of_notMem hname.2.2.2,
        Path.slash, Path.empty]
    obtain ⟨hhead, htail⟩ := Path.head_of_isName hname.2.2.2
    simp [hspelled, Path.route_slash, hhead, htail]
  have hfirst : IsSpellable ((Path.mk "/").child (name 0)) :=
    ⟨by decide +kernel, by decide +kernel, by decide +kernel⟩
  refine ⟨rfl, fun ending name hname => ⟨linkLimit, ?_⟩, isSpellable_child_name hfirst,
    by simp [processes]⟩
  rw [startOf, hroute hname]
  exact .refl

/-- What a compilation leaves in a scratch directory at the root can be spelled. -/
theorem isSpellable_root_output (n : Name) :
    IsSpellable (((Path.mk "/").child n.text).child "a.bin") := by
  have hfirst : IsSpellable (((Path.mk "/").child (name 0)).child "a.bin") :=
    ⟨by decide +kernel, by decide +kernel, by decide +kernel⟩
  exact isSpellable_child_child (by decide +kernel) hfirst n

theorem parent_withTree {chosen : Option Path} (h : Scratch.parent world chosen = .ok parent)
    (hgrows : world.tree.Grows later) :
    Scratch.parent (world.withTree later) chosen = .ok parent := by
  cases chosen with
  | none => exact h
  | some chosen =>
    simp only [Scratch.parent] at h ⊢
    split
    · rwa [if_pos ‹_›] at h
    · rw [if_neg ‹_›] at h
      obtain ⟨directory, hdirectory, rfl⟩ := exists_of_map_eq_ok h
      suffices hnow : (world.withTree later).directory = .ok directory by
        rw [hnow]
        rfl
      unfold World.directory isDirectoryAt at hdirectory ⊢
      split at hdirectory
      · rename_i hcwd
        rw [World.tree_withTree, World.cwd_withTree,
          if_pos (by simpa using hgrows.directory (by simpa using hcwd))]
        exact hdirectory
      · cases hdirectory

end

end Scratch

end ShaderEmbed
