import ShaderEmbed.Proofs.Text.Scan

/-!
# Namespace names

Cutting a text at its double colons loses nothing (`intercalate_cutColons`), and pieces without a
colon, joined by double colons, are cut as they were joined (`cutColons_intercalate`). So a
namespace name is one or more identifiers joined by double colons (`isNamespaceName_iff`).
-/

namespace ShaderEmbed.Text

variable {piece rest : List Char} {pieces : List (List Char)}

theorem cutColons_cons_of_ne {c : Char} (hc : c ≠ ':') {first : List Char}
    {others : List (List Char)} (h : cutColons rest = first :: others) :
    cutColons (c :: rest) = (c :: first) :: others := by
  rw [cutColons]
  · rw [h]
  · rintro more rfl
    exact absurd rfl hc

theorem cutColons_of_notMem (h : ':' ∉ piece) : cutColons piece = [piece] := by
  induction piece with
  | nil => rfl
  | cons c piece ih =>
    simp only [List.mem_cons, not_or] at h
    exact cutColons_cons_of_ne (Ne.symm h.1) (ih h.2)

theorem cutColons_append (h : ':' ∉ piece) :
    cutColons (piece ++ ':' :: ':' :: rest) = piece :: cutColons rest := by
  induction piece with
  | nil => rw [List.nil_append, cutColons]
  | cons c piece ih =>
    simp only [List.mem_cons, not_or] at h
    exact cutColons_cons_of_ne (Ne.symm h.1) (ih h.2)

theorem cutColons_intercalate (hne : pieces ≠ []) (h : ∀ piece ∈ pieces, ':' ∉ piece) :
    cutColons ([':', ':'].intercalate pieces) = pieces := by
  induction pieces with
  | nil => exact absurd rfl hne
  | cons piece others ih =>
    obtain ⟨hpiece, hothers⟩ := List.forall_mem_cons.mp h
    cases others with
    | nil => rw [List.intercalate_singleton, cutColons_of_notMem hpiece]
    | cons next others =>
      have hjoined : [':', ':'].intercalate (piece :: next :: others) =
          piece ++ ':' :: ':' :: [':', ':'].intercalate (next :: others) := by
        rw [List.intercalate_cons_cons, List.append_assoc]
        rfl
      rw [hjoined, cutColons_append hpiece, ih (List.cons_ne_nil _ _) hothers]

theorem intercalate_cutColons (s : List Char) :
    cutColons s ≠ [] ∧ [':', ':'].intercalate (cutColons s) = s := by
  fun_induction cutColons s with
  | case1 => exact ⟨by simp, rfl⟩
  | case2 rest ih =>
    obtain ⟨next, others, hcut⟩ := List.exists_cons_of_ne_nil ih.1
    rw [hcut] at ih ⊢
    rw [List.intercalate_cons_cons, ih.2]
    exact ⟨by simp, rfl⟩
  | case3 c rest _ hcut ih => exact absurd hcut ih.1
  | case4 c rest _ piece others hcut ih =>
    rw [hcut] at ih
    refine ⟨by simp, ?_⟩
    cases others with
    | nil =>
      rw [List.intercalate_singleton] at ih ⊢
      rw [ih.2]
    | cons next others =>
      rw [List.intercalate_cons_cons] at ih ⊢
      rw [List.cons_append, List.cons_append, ih.2]

theorem isNamespaceName_iff {s : String} : isNamespaceName s ↔
    ∃ names : List String, names ≠ [] ∧ (∀ name ∈ names, isIdentifier name) ∧
    s = "::".intercalate names := by
  rw [isNamespaceName, List.all_eq_true]
  constructor
  · intro h
    obtain ⟨hne, hjoined⟩ := intercalate_cutColons s.toList
    refine ⟨(cutColons s.toList).map String.ofList, by simpa using hne, ?_, ?_⟩
    · simpa [isIdentifier] using h
    · rw [← String.toList_inj, String.toList_intercalate]
      simpa [Function.comp_def] using hjoined.symm
  · rintro ⟨names, hne, hnames, rfl⟩
    have hcolon : ∀ piece ∈ names.map String.toList, ':' ∉ piece := by
      intro piece hpiece hmem
      obtain ⟨name, hname, rfl⟩ := List.mem_map.mp hpiece
      exact absurd (follows_of_mem_identifier (hnames name hname) ':' hmem) (by decide)
    have hcut : cutColons ("::".intercalate names).toList = names.map String.toList := by
      rw [String.toList_intercalate]
      exact cutColons_intercalate (by simpa using hne) hcolon
    rw [hcut]
    simpa [isIdentifier] using hnames

end ShaderEmbed.Text
