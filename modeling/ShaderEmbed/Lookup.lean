/-!
# Looking keys up in lists of pairs

A finite map is kept as a list of keys and values, in which the first pair with a key counts. A key
that is found is among the keys (`mem_keys_of_lookup`), leaving out pairs by their keys hides the
keys that were left out and no others (`lookup_filter_keys`), and a change of all values is a change
of the value that is found (`lookup_map_values`).
-/

namespace ShaderEmbed

variable {α β : Type} [BEq α] [LawfulBEq α]

theorem mem_keys_of_lookup {key : α} {value : β} {pairs : List (α × β)}
    (h : pairs.lookup key = some value) :
    key ∈ pairs.map (·.1) := by
  induction pairs with
  | nil => simp at h
  | cons first rest ih =>
    obtain ⟨other, found⟩ := first
    cases e : key == other with
    | true => simp [eq_of_beq e]
    | false =>
      simp only [List.lookup_cons, e] at h
      exact List.mem_cons_of_mem _ (ih h)

theorem lookup_filter_keys (p : α → Bool) (key : α) (pairs : List (α × β)) :
    (pairs.filter fun pair => p pair.1).lookup key = if p key then pairs.lookup key else none := by
  induction pairs with
  | nil => simp
  | cons first rest ih =>
    obtain ⟨other, found⟩ := first
    cases e : key == other with
    | true =>
      obtain rfl := eq_of_beq e
      cases hp : p key <;> simp [hp, ih]
    | false => cases hp : p other <;> simp [hp, List.lookup_cons, e, ih]

omit [LawfulBEq α] in
theorem lookup_map_values {γ : Type} (f : β → γ) (key : α) (pairs : List (α × β)) :
    (pairs.map fun pair => (pair.1, f pair.2)).lookup key = (pairs.lookup key).map f := by
  induction pairs with
  | nil => rfl
  | cons first rest ih =>
    rw [List.map_cons, List.lookup_cons, List.lookup_cons, ih]
    cases key == first.1 <;> rfl

end ShaderEmbed
