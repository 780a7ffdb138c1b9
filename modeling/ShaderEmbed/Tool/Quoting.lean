import ShaderEmbed.Text.Utf8

/-!
# Names in complaints

A program that complains about a name writes it so that a shell would read it back: between
apostrophes, with those characters that cannot stand there written by letter or by number.
`Shown.always` quotes every name, `Shown.ifOdd` only those that a shell would not take as they are,
and `Shown.plainly` puts a name between apostrophes with backslashes inside.
-/

namespace ShaderEmbed.Shown

/-- The characters behind a backslash for a control character that has a letter. -/
def controlLetter? (b : UInt8) : Option Char :=
  [(7, 'a'), (8, 'b'), (9, 't'), (10, 'n'), (11, 'v'), (12, 'f'), (13, 'r')].lookup b.toNat

def isVisible (b : UInt8) : Bool := 32 ≤ b && b < 127

def escape (b : UInt8) : List Char :=
  match controlLetter? b with
  | some letter => [letter]
  | none => [b.toNat / 64, b.toNat / 8 % 8, b.toNat % 8].map Nat.digitChar

def charOf (b : UInt8) : Char := Char.ofNat b.toNat

/-- Whether a shell and a program both take a byte as itself between double quotes. What stands in
front of it, and whether it is all there is, decides for some. -/
def isTame (first only : Bool) (b : UInt8) : Bool :=
  let c := charOf b
  if "#~".toList.contains c then first
  else if "\x7b\x7d".toList.contains c then only
  else isVisible b && !"?\\!\"$&()*;<=>[^\x60|".toList.contains c

/-- Whether a shell takes a byte of a name as itself without quotes. -/
def isBare (first only : Bool) (b : UInt8) : Bool :=
  let c := charOf b
  if "#~".toList.contains c then !first
  else if "\x7b\x7d".toList.contains c then !only
  else isTame first only b && c ≠ ' ' && c ≠ '\''

/-- Whether each byte of a name passes a test that is told whether the byte is the first one, or all
there is. -/
def allBytes (test : Bool → Bool → UInt8 → Bool) (name : Bytes) : Bool :=
  name.zipIdx.all fun (b, i) => test (i = 0) (name.length = 1) b

/-- The inside of a name between apostrophes, and whether it ends among escaped bytes. Escaped bytes
stand between a dollar sign with an apostrophe and another apostrophe. -/
def inner : Bool → Bytes → List Char × Bool
  | escaping, [] => ([], escaping)
  | escaping, b :: rest =>
    if charOf b = '\'' then
      let (others, last) := inner false rest
      (['\'', '\\', '\'', '\''] ++ others, last)
    else if isVisible b then
      let (others, last) := inner false rest
      ((if escaping then ['\'', '\''] else []) ++ charOf b :: others, last)
    else
      let (others, last) := inner true rest
      ((if escaping then [] else ['\'', '$', '\'']) ++ '\\' :: escape b ++ others, last)

/-- A name between quotes. A name with apostrophes is put between double quotes where that will do;
otherwise it is gone through twice, and the second time starts as the first one ended. -/
def always (name : String) : String :=
  let bytes := Text.encode name
  let hasApostrophe := name.toList.contains '\''
  if hasApostrophe && allBytes isTame bytes then "\"" ++ name ++ "\""
  else
    let escaping := hasApostrophe && (inner false bytes).2
    "'" ++ String.ofList (inner escaping bytes).1 ++ "'"

/-- A name, between quotes if a shell would not take it as it is. -/
def ifOdd (name : String) : String :=
  if name ≠ "" && allBytes isBare (Text.encode name) then name else always name

/-- A name between apostrophes, with a backslash in front of apostrophes and backslashes. -/
def plainly (name : String) : String :=
  let written (b : UInt8) : List Char :=
    if charOf b = '\'' || charOf b = '\\' then ['\\', charOf b]
    else if isVisible b then [charOf b]
    else '\\' :: escape b
  "'" ++ String.ofList ((Text.encode name).flatMap written) ++ "'"

end ShaderEmbed.Shown
