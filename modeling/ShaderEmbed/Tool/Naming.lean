import ShaderEmbed.File.Walk

/-!
# Names of scratch directories

A scratch directory is named by a common beginning and six letters or digits. Which ones is not for
a build to say: a name is drawn where the directory is to be made. Here the names are numbered, too,
and `counted` draws the first that is free.
-/

namespace ShaderEmbed.Scratch

def nameStart : String := "shadergen-"

def alphabet : List Char := "XYZABCDEFGHIJKLMNOPQRSTUVWabcdefghijklmnopqrstuvwxyz0123456789".toList

/-- The name of a scratch directory: six letters or digits behind the common beginning. -/
structure Name where
  code : List Char
  length_code : code.length = 6
  mem_alphabet : ∀ c ∈ code, c ∈ alphabet
deriving DecidableEq

def Name.text (name : Name) : String := nameStart ++ String.ofList name.code

/-! ## Counting -/

/-- The last `count` letters of the name with a number. -/
def numeral : Nat → Nat → List Char
  | 0, _ => []
  | count + 1, n => numeral count (n / 62) ++ [alphabet.getD (n % 62) 'X']

theorem length_numeral (count n : Nat) : (numeral count n).length = count := by
  induction count generalizing n with
  | zero => rfl
  | succ count ih => rw [numeral, List.length_append, ih, List.length_singleton]

theorem getD_alphabet_mem {i : Nat} (h : i < 62) : alphabet.getD i 'X' ∈ alphabet := by
  have hlt : i < alphabet.length := h
  rw [List.getD_eq_getElem?_getD, List.getElem?_eq_getElem hlt, Option.getD_some]
  exact List.getElem_mem hlt

theorem mem_alphabet_of_mem_numeral (count n : Nat) : ∀ c ∈ numeral count n, c ∈ alphabet := by
  induction count generalizing n with
  | zero => simp [numeral]
  | succ count ih =>
    intro c hc
    rcases List.mem_append.mp hc with hc | hc
    · exact ih _ c hc
    · obtain rfl := List.mem_singleton.mp hc
      exact getD_alphabet_mem (Nat.mod_lt n (by decide))

def numbered (n : Nat) : Name := ⟨numeral 6 n, length_numeral 6 n, mem_alphabet_of_mem_numeral 6 n⟩

/-- The text of the name with a number. -/
def name (n : Nat) : String := (numbered n).text

/-- Whether something under a parent has a name already. -/
def isTaken (tree : FileTree) (cwd : Place) (parent : Path) (name : Name) : Bool :=
  (tree.find .stop cwd (parent.child name.text)).toOption.any fun place => (tree.get? place).isSome

/-- The first name that nothing under a parent has. -/
def counted (tree : FileTree) (cwd : Place) (parent : Path) : Name :=
  -- one candidate more than there are entries, so one of them is free
  let candidates := List.range (tree.entries.length + 1)
  numbered ((candidates.find? fun n => !isTaken tree cwd parent (numbered n)).getD 0)

end ShaderEmbed.Scratch
