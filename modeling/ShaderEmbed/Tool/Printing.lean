import ShaderEmbed.Decimal.Format
import ShaderEmbed.Text.Digits
import ShaderEmbed.Tool.Program

/-!
# Printing

The programs that print their arguments. A backslash writes a control character or, with octal
digits, any byte. A format writes one argument for each of its directives, and is used again as long
as there are arguments.
-/

namespace ShaderEmbed.Program

def octalByte (digits : List Char) : UInt8 :=
  UInt8.ofNat (Text.digitsValue 8 digits)

/-- The byte that octal digits at the front of a text spell, at most three of them. -/
def octalEscape (rest : List Char) : Bytes × List Char :=
  let digits := (rest.takeWhile (Text.isDigitIn 8)).take 3
  ([octalByte digits], rest.drop digits.length)

def bytesOf (c : Char) : Bytes := Text.encode (String.ofList [c])

/-- What a backslash and the text behind it write, and what follows. -/
def escapeBytes : List Char → Bytes × List Char
  | [] => ([92], [])
  | 'a' :: rest => ([7], rest)
  | 'b' :: rest => ([8], rest)
  | 'e' :: rest => ([27], rest)
  | 'f' :: rest => ([12], rest)
  | 'n' :: rest => ([10], rest)
  | 'r' :: rest => ([13], rest)
  | 't' :: rest => ([9], rest)
  | 'v' :: rest => ([11], rest)
  | '\\' :: rest => ([92], rest)
  | '"' :: rest => ([34], rest)
  | c :: rest => if Text.isDigitIn 8 c then octalEscape (c :: rest) else (92 :: bytesOf c, rest)

/-- The bytes of a text with escapes, and whether it may be followed by anything. A zero starts
three more octal digits, and `\c` ends all printing. -/
def unescape : Nat → List Char → Bytes × Bool
  | 0, _ => ([], true)
  | _, [] => ([], true)
  | _ + 1, '\\' :: 'c' :: _ => ([], false)
  | n + 1, '\\' :: '0' :: rest =>
    let (byte, after) := if (rest.head?.map (Text.isDigitIn 8)).getD false then octalEscape rest
      else ([0], rest)
    let (bytes, more) := unescape n after
    (byte ++ bytes, more)
  | n + 1, '\\' :: rest =>
    let (byte, after) := escapeBytes rest
    let (bytes, more) := unescape n after
    (byte ++ bytes, more)
  | n + 1, c :: rest =>
    let (bytes, more) := unescape n rest
    (bytesOf c ++ bytes, more)

/-! ## Directives -/

/-- How a directive lays out what it writes. -/
structure Directive where
  flags : List Char
  width : Nat
  precision : Option Nat
  conversion : Char

/-- A dialect of the program: its words for what is wrong, and whether `\c` in a format ends all
printing. -/
structure PrintDialect where
  notNumber : String → String
  notWhole : String → String
  tooLarge : String → String
  badDirective : String → String
  noConversion : String
  badCode : Nat
  escapesStop : Bool

/-- The complaints of the shell. -/
def PrintDialect.shell : PrintDialect where
  notNumber text := text ++ ": expected numeric value"
  notWhole text := text ++ ": not completely converted"
  tooLarge text := text ++ ": Numerical result out of range"
  badDirective text := text ++ ": invalid directive"
  noConversion := "missing format character"
  badCode := 2
  escapesStop := false

/-- The complaints of the program on its own. -/
def PrintDialect.alone : PrintDialect where
  notNumber text := "'" ++ text ++ "': expected a numeric value"
  notWhole text := "'" ++ text ++ "': value not completely converted"
  tooLarge text := "'" ++ text ++ "': Numerical result out of range"
  badDirective text := text ++ ": invalid conversion specification"
  noConversion := "%: invalid conversion specification"
  badCode := 1
  escapesStop := true

def padded (directive : Directive) (bytes : Bytes) : Bytes :=
  let blanks := List.replicate (directive.width - bytes.length) 32
  if directive.flags.contains '-' then bytes ++ blanks else blanks ++ bytes

/-- A number in digits, with its sign and what goes in front of it, in a field of at least some
width. -/
def paddedNumber (directive : Directive) (front digits : List Char) : Bytes :=
  let digits := List.replicate ((directive.precision.getD 1) - digits.length) '0' ++ digits
  let filled :=
    if directive.flags.contains '0' && !directive.flags.contains '-' &&
        directive.precision.isNone then
      List.replicate (directive.width - front.length - digits.length) '0' ++ digits
    else digits
  padded directive (Text.encode (String.ofList (front ++ filled)))

def signOf (directive : Directive) (negative : Bool) : List Char :=
  if negative then ['-'] else if directive.flags.contains '+' then ['+']
  else if directive.flags.contains ' ' then [' '] else []

/-- The number that an argument stands for within limits, and a complaint if it is no such number. A
quote stands for the character behind it. -/
def argumentNumber (dialect : PrintDialect) (low high : Int)
    (argument : String) : Int × Option String :=
  let text := argument.toList.dropWhile fun c => c = ' ' || ('\t' ≤ c && c ≤ '\r')
  match argument.toList with
  | '\'' :: rest => ((rest.head?.map fun c => (c.toNat : Int)).getD 0, none)
  | '"' :: rest => ((rest.head?.map fun c => (c.toNat : Int)).getD 0, none)
  | _ =>
    let (sign, digits) : Int × List Char := match text with
      | '-' :: rest => (-1, rest)
      | '+' :: rest => (1, rest)
      | _ => (1, text)
    let (found, after) := Text.numberAtFront digits
    match found with
    | none => (0, if argument = "" then none else some (dialect.notNumber argument))
    | some n =>
      let value := sign * n
      if !after.isEmpty then (max low (min high value), some (dialect.notWhole argument))
      else if value < low then (low, some (dialect.tooLarge argument))
      else if high < value then (high, some (dialect.tooLarge argument))
      else (value, none)

/-- The binary number that digits spell, given how many of them stand behind a point and the power
behind them. -/
def realValue (negative isHex : Bool) (digits : List Char) (behind : Nat)
    (power : Int) : Binary64 :=
  if isHex then
    let mantissa := Text.digitsValue 16 digits
    let shift : Int := power - 4 * behind
    if mantissa = 0 || shift < -2200 then .finite negative 0 Binary64.minExponent
    else if 2200 < shift then .infinite negative
    else .ofFraction negative (mantissa * Nat.pow 2 shift.toNat) (Nat.pow 2 (-shift).toNat)
  else .ofDecimal negative (Text.digitsValue 10 digits) (power - behind)

/-- Whether a number that digits spell is too large or too small for the format. -/
def isBeyond (digits : List Char) : Binary64 → Bool
  | .finite _ mantissa exponent =>
    digits.any (· ≠ '0') && exponent = Binary64.minExponent && mantissa < Binary64.mantissaBound / 2
  | .infinite _ => true
  | .undefined => false

/-- The number with a point that an argument stands for, and a complaint if it is no such number. -/
def argumentReal (dialect : PrintDialect) (argument : String) : Binary64 × Option String :=
  let text := argument.toList.dropWhile fun c => c = ' ' || ('\t' ≤ c && c ≤ '\r')
  let (negative, unsigned) : Bool × List Char := match text with
    | '-' :: rest => (true, rest)
    | '+' :: rest => (false, rest)
    | _ => (false, text)
  let startsWith (word : String) : Bool := word.toList.isPrefixOf (unsigned.map Char.toLower)
  let finish (value : Binary64) (after : List Char) : Binary64 × Option String :=
    (value, if after.isEmpty then none else some (dialect.notWhole argument))
  match argument.toList with
  | '\'' :: rest => (.ofDecimal false ((rest.head?.map Char.toNat).getD 0) 0, none)
  | '"' :: rest => (.ofDecimal false ((rest.head?.map Char.toNat).getD 0) 0, none)
  | _ =>
    if startsWith "infinity" then finish (.infinite negative) (unsigned.drop 8)
    else if startsWith "inf" then finish (.infinite negative) (unsigned.drop 3)
    else if startsWith "nan" then finish .undefined (unsigned.drop 3)
    else
      let isHex :=
        startsWith "0x" && (Binary64.placesAtFront (Text.isDigitIn 16) (unsigned.drop 2)).1 ≠ []
      let (digits, behind, rest) :=
        if isHex then Binary64.placesAtFront (Text.isDigitIn 16) (unsigned.drop 2)
        else Binary64.placesAtFront Char.isDigit unsigned
      let (power, after) := if isHex then Binary64.powerAtFront 'p' 'P' rest else
        Binary64.powerAtFront 'e' 'E' rest
      let value := realValue negative isHex digits behind power
      if digits.isEmpty then (value, if argument = "" then none else
        some (dialect.notNumber argument))
      else if isBeyond digits value && after.isEmpty then (value, some (dialect.tooLarge argument))
      else finish value after

def realDigits (directive : Directive) (mantissa : Nat) (exponent : Int) : List Char :=
  let (num, den) := Binary64.fractionOf mantissa exponent
  let places := directive.precision.getD 6
  let full := directive.flags.contains '#'
  match directive.conversion.toLower with
  | 'e' => Binary64.scientific full places num den
  | 'f' => Binary64.fixed full places num den
  | _ => Binary64.general full places num den

def writtenReal (directive : Directive) (value : Binary64) : Bytes :=
  let (negative, body, isFinite) : Bool × List Char × Bool := match value with
    | .finite negative mantissa exponent => (negative, realDigits directive mantissa exponent, true)
    | .infinite negative => (negative, "inf".toList, false)
    | .undefined => (false, "nan".toList, false)
  let front := signOf directive negative
  let body := if directive.conversion.isUpper then body.map Char.toUpper else body
  let filled :=
    if isFinite && directive.flags.contains '0' && !directive.flags.contains '-' then
      List.replicate (directive.width - front.length - body.length) '0' ++ body
    else body
  padded directive (Text.encode (String.ofList (front ++ filled)))

/-- What a directive writes for an argument, and a complaint about the argument. There may be no
such directive. -/
def convert (dialect : PrintDialect) (directive : Directive)
    (argument : String) : Option (Bytes × Option String) :=
  let cut (bytes : Bytes) : Bytes := directive.precision.elim bytes bytes.take
  let signed : Bytes × Option String :=
    let (n, complaint) := argumentNumber dialect (-9223372036854775808) 9223372036854775807 argument
    (paddedNumber directive (signOf directive (n < 0)) (Nat.toDigits 10 n.natAbs), complaint)
  let unsigned (base : Nat) (front : List Char) (change : Char → Char) : Bytes × Option String :=
    let (n, complaint) :=
      argumentNumber dialect (-18446744073709551615) 18446744073709551615 argument
    let value := (n % 18446744073709551616).toNat
    let front := if directive.flags.contains '#' && value ≠ 0 then front else []
    (paddedNumber directive front ((Nat.toDigits base value).map change), complaint)
  match directive.conversion with
  | 's' => some (padded directive (cut (Text.encode argument)), none)
  | 'b' => some (padded directive (cut (unescape argument.length argument.toList).1), none)
  | 'c' => some (padded directive ((Text.encode argument).take 1), none)
  | 'd' => some signed
  | 'i' => some signed
  | 'u' => some (unsigned 10 [] id)
  | 'o' => some (unsigned 8 ['0'] id)
  | 'x' => some (unsigned 16 ['0', 'x'] id)
  | 'X' => some (unsigned 16 ['0', 'X'] Char.toUpper)
  | c =>
    if "eEfFgG".toList.contains c then
      let (value, complaint) := argumentReal dialect argument
      some (writtenReal directive value, complaint)
    else none

/-! ## Formats -/

/-- What printing by a format has come to: bytes and complaints in their order, and the arguments
that are left. -/
structure Printed where
  pieces : List (Except String Bytes)
  arguments : List String
  code : Nat
  stopped : Bool

namespace Printed

def after (bytes : Bytes) (printed : Printed) : Printed :=
  { printed with pieces := .ok bytes :: printed.pieces }

def warning (complaint : Option String) (printed : Printed) : Printed :=
  match complaint with
  | some text =>
    { printed with pieces := .error text :: printed.pieces, code := max 1 printed.code }
  | none => printed

end Printed

/-- A number in a directive: digits, or an argument in the place of a star. -/
def directiveNumber (rest : List Char) (arguments : List String) :
    Option Nat × List Char × List String :=
  match rest with
  | '*' :: after => (some ((arguments.headD "").toNat?.getD 0), after, arguments.drop 1)
  | _ =>
    let digits := rest.takeWhile Char.isDigit
    (if digits.isEmpty then none else (String.ofList digits).toNat?,
      rest.dropWhile Char.isDigit, arguments)

/-- The directive behind a percent sign, the text after it, and the arguments that are left; there
may be no conversion. -/
def readDirective (rest : List Char) (arguments : List String) :
    Directive × List Char × List String :=
  let isFlag (c : Char) : Bool := "#-+ 0".toList.contains c
  let flags := rest.takeWhile isFlag
  let (width, rest, arguments) := directiveNumber (rest.dropWhile isFlag) arguments
  let (precision, rest, arguments) :=
    match rest with
    | '.' :: after =>
      let (precision, after, arguments) := directiveNumber after arguments
      (some (precision.getD 0), after, arguments)
    | _ => (none, rest, arguments)
  (⟨flags, width.getD 0, precision, rest.headD '\x00'⟩, rest.drop 1, arguments)

/-- Writes a format once. The number bounds its parts. -/
def formatOnce (dialect : PrintDialect) : Nat → List Char → List String → Printed
  | 0, _, arguments => ⟨[], arguments, 0, false⟩
  | _, [], arguments => ⟨[], arguments, 0, false⟩
  | n + 1, '\\' :: 'c' :: rest, arguments =>
    if dialect.escapesStop then ⟨[], arguments, 0, true⟩
    else (formatOnce dialect n rest arguments).after [92, 99]
  | n + 1, '\\' :: rest, arguments =>
    let (bytes, after) := escapeBytes rest
    (formatOnce dialect n after arguments).after bytes
  | n + 1, '%' :: '%' :: rest, arguments => (formatOnce dialect n rest arguments).after [37]
  | n + 1, '%' :: rest, arguments =>
    let (directive, after, left) := readDirective rest arguments
    if directive.conversion = '\x00' then
      ⟨[.error dialect.noConversion], left, dialect.badCode, true⟩
    else
      match convert dialect directive (left.headD "") with
      | some (bytes, complaint) =>
        let argument := left.headD ""
        if directive.conversion = 'b' && !(unescape argument.length argument.toList).2 then
          ⟨[.ok bytes], left.drop 1, 0, true⟩
        else ((formatOnce dialect n after (left.drop 1)).after bytes).warning complaint
      | none =>
        let written := String.ofList ('%' :: rest.take (rest.length - after.length))
        ⟨[.error (dialect.badDirective written)], left, dialect.badCode, true⟩
  | n + 1, c :: rest, arguments => (formatOnce dialect n rest arguments).after (bytesOf c)

/-- Writes a format again as long as it uses up arguments, at most a number of times. -/
def formatAll (dialect : PrintDialect) : Nat → List Char → List String → Printed
  | 0, _, arguments => ⟨[], arguments, 0, false⟩
  | n + 1, format, arguments =>
    let first := formatOnce dialect format.length format arguments
    if first.stopped || first.arguments.isEmpty ||
        first.arguments.length = arguments.length then first
    else
      let others := formatAll dialect n format first.arguments
      ⟨first.pieces ++ others.pieces, others.arguments, max first.code others.code, others.stopped⟩

def printBy (dialect : PrintDialect) (format : String)
    (arguments : List String) : Program := fun start =>
  let printed := formatAll dialect (arguments.length + 1) format.toList arguments
  let piece : Except String Bytes → Outlet × Bytes
    | .ok bytes => (.output, bytes)
    | .error text => (.errors, Text.encode (start.name ++ ": " ++ text ++ "\n"))
  { code := printed.code, printed := printed.pieces.map piece, tree := start.tree }

/-- The arguments without a leading pair of dashes. -/
def operandsOf : List String → List String
  | "--" :: rest => rest
  | arguments => arguments

/-- Prints arguments by a format, as the shell does. -/
def printf : Program := fun start =>
  match operandsOf start.arguments with
  | [] => complain 2 "usage: printf format [arg ...]" start
  | format :: arguments =>
    match if start.arguments.head? = some "--" then [] else format.toList with
    | '-' :: c :: _ => complain 2 ("Illegal option -" ++ String.ofList [c]) start
    | _ => printBy .shell format arguments start

/-- Prints arguments by a format, and warns of arguments that a format without conversions leaves
over. -/
def printfAlone : Program := fun start =>
  match operandsOf start.arguments with
  | [] => misuse 1 "missing operand" start
  | ["--help"] => quit 0 start
  | ["--version"] => quit 0 start
  | format :: arguments =>
    let once := formatOnce .alone format.length format.toList arguments
    let ended := printBy .alone format arguments
    match arguments with
    | first :: _ =>
      if !once.stopped && once.arguments.length = arguments.length then
        followedBy ended
          (warn 0 (start.name ++ ": warning: ignoring excess arguments, starting with " ++
          Shown.plainly first ++ "\n")) start
      else ended start
    | [] => ended start

/-- Prints arguments on one line, as the shell does. -/
def echo : Program := fun start =>
  let (bare, words) :=
    match start.arguments with
    | "-n" :: words => (true, words)
    | words => (false, words)
  let line := " ".intercalate words
  let (bytes, more) := unescape line.length line.toList
  say (if bare || !more then bytes else bytes ++ [10]) start

/-- Prints arguments on one line. Options in front tell whether backslashes count, and whether the
line ends. -/
def echoAlone : Program := fun start =>
  let isOption (argument : String) : Bool :=
    match argument.toList with
    | '-' :: c :: more => (c :: more).all "neE".toList.contains
    | _ => false
  let letters := (start.arguments.takeWhile isOption).flatMap String.toList
  let line := " ".intercalate (start.arguments.dropWhile isOption)
  let escaped := (letters.filter fun c => c = 'e' || c = 'E').getLast? = some 'e'
  let (bytes, more) := if escaped then unescape line.length line.toList
    else (Text.encode line, true)
  if start.arguments = ["--help"] || start.arguments = ["--version"] then quit 0 start
  else say (if letters.contains 'n' || !more then bytes else bytes ++ [10]) start

end ShaderEmbed.Program
