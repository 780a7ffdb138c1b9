import ShaderEmbed.Tool.Shell.Signal

/-!
# Options

The options of the shell are letters, some of which have a name; a sign in front tells whether they
are set or not. A script can also read options off its own arguments one after the other.
-/

namespace ShaderEmbed.Shell

def setOption (options : Options) (on : Bool) (letter : Char) : Options :=
  match letter with
  | 'e' => { options with strict := on }
  | 'u' => { options with careful := on }
  | 'x' => { options with telling := on }
  | 'f' => { options with literal := on }
  | 'C' => { options with guarded := on }
  | 'a' => { options with exporting := on }
  | 'n' => { options with idle := on }
  | _ => options

def optionNames : List (String × Char) :=
  [("errexit", 'e'), ("noglob", 'f'), ("ignoreeof", 'I'), ("interactive", 'i'),
    ("monitor", 'm'), ("noexec", 'n'), ("stdin", 's'), ("xtrace", 'x'), ("verbose", 'v'),
    ("vi", 'V'), ("emacs", 'E'), ("noclobber", 'C'),
    ("allexport", 'a'), ("notify", 'b'), ("nounset", 'u')]

def shellOptions : List Char := "abcefilmnsuvxCEIV".toList

/-- Arguments of the shell taken apart: what leading options set, their letters, an option that
there is not, if there is one, and the operands behind them. Two dashes end the options, also where
no operand follows. -/
structure ShellArguments where
  options : Options
  letters : List Char
  unknown : Option String
  dashed : Bool
  operands : List String

/-- Takes arguments of the shell apart, given the options that are set. -/
def ShellArguments.read : List String → Options → ShellArguments
  | [], options => ⟨options, [], none, false, []⟩
  | "--" :: rest, options => ⟨options, [], none, true, rest⟩
  | "-o" :: name :: rest, options => named true name (read rest (setNamed true name options))
  | "+o" :: name :: rest, options => named false name (read rest (setNamed false name options))
  | argument :: rest, options =>
    let go (on : Bool) (letters : List Char) : ShellArguments :=
      let others :=
        read rest (letters.foldl (fun options letter => setOption options on letter) options)
      { others with
        letters := (if on then letters else []) ++ others.letters
        unknown :=
          ((letters.find? fun c => !shellOptions.contains c).map
            fun c => "-" ++ String.ofList [c]).or others.unknown }
    match argument.toList with
    | '-' :: c :: more => go true (c :: more)
    | '+' :: c :: more => go false (c :: more)
    | _ => ⟨options, [], none, false, argument :: rest⟩
where
  setNamed (on : Bool) (name : String) (options : Options) : Options :=
    (optionNames.lookup name).elim options (setOption options on)
  /-- What was read, with an option by its name in front. -/
  named (on : Bool) (name : String) (others : ShellArguments) : ShellArguments :=
    match optionNames.lookup name with
    | some letter => { others with letters := (if on then [letter] else []) ++ others.letters }
    | none =>
      if name = "nolog" || name = "debug" || name = "privileged" then others
      else { others with unknown := some ((if on then "-o " else "+o ") ++ name) }

def setOptions (arguments : List String) (s : State) : State :=
  let given := ShellArguments.read arguments s.options
  match given.unknown with
  | some option => s.refuse ("set: Illegal option " ++ option)
  | none =>
    let changed := given.dashed || !given.operands.isEmpty
    let set := { s with options := given.options }.withStatus 0
    if changed then { set.assign "OPTIND" "1" with arguments := given.operands } else set

/-! ## Options of a script -/

/-- The text behind which the letters of an argument that was started are still to be read, if there
are any. -/
def pendingLetters (arguments : List String) (place letters : Nat) : List Char :=
  if place ≤ 1 || letters = 0 then []
  else ((arguments[place - 2]?).getD "").toList.drop letters

/-- What one reading of options comes to: a letter, the argument of the option if it has one, what
is complained of, the place of the next argument, and how many letters of the one before it were
read. -/
structure OptionStep where
  letter : Char
  value : Option String
  complaint : Option String
  place : Nat
  letters : Nat

/-- Reads an option by its letter, given the letters behind it in its argument. A colon in front of
all keeps quiet. -/
def readOption (known : List Char) (arguments : List String) (place : Nat) (c : Char)
    (more : List Char) : OptionStep :=
  let quiet := known.head? = some ':'
  let behind := ((arguments[place - 2]?).getD "").length - more.length
  match if c = ':' then [] else known.dropWhile (· ≠ c) with
  | [] =>
    if quiet then ⟨'?', some (String.ofList [c]), none, place, behind⟩
    else ⟨'?', none, some ("Illegal option -" ++ String.ofList [c] ++ "\n"), place, behind⟩
  | _ :: ':' :: _ =>
    match more, arguments[place - 1]? with
    | _ :: _, _ => ⟨c, some (String.ofList more), none, place, 0⟩
    | [], some value => ⟨c, some value, none, place + 1, 0⟩
    | [], none =>
      if quiet then ⟨':', some (String.ofList [c]), none, place, behind⟩
      else ⟨'?', none, some ("No arg for -" ++ String.ofList [c] ++ " option\n"), place, behind⟩
  | _ => ⟨c, some "", none, place, behind⟩

/-- Reads the next option off arguments from a place on, or yields the place behind the last one. -/
def nextOption (known : List Char) (arguments : List String)
    (place letters : Nat) : OptionStep ⊕ Nat :=
  match pendingLetters arguments place letters with
  | c :: more => .inl (readOption known arguments place c more)
  | [] =>
    match ((arguments[place - 1]?).getD "").toList with
    | ['-', '-'] => .inr (place + 1)
    | '-' :: c :: more => .inl (readOption known arguments (place + 1) c more)
    | _ => .inr place

def getOptions (arguments : List String) (s : State) : State :=
  match arguments with
  | known :: name :: given =>
    let all := if given.isEmpty then s.arguments else given
    let place := max 1 (((s.bindings.lookup "OPTIND").bind number?).getD 1)
    match nextOption known.toList all place s.letters with
    | .inr last => ((s.assign "OPTIND" (toString last)).assign name "?").withStatus 1
    | .inl step =>
      let told := step.complaint.elim s fun text => s.send 2 (Text.encode text)
      let valued := step.value.elim (told.unassign "OPTARG") (told.assign "OPTARG")
      let placed :=
        (valued.assign "OPTIND" (toString step.place)).assign name (String.ofList [step.letter])
      { placed with letters := step.letters }.withStatus 0
  | _ => (s.complain "getopts: Usage: getopts optstring var [arg...]").withStatus 2

end ShaderEmbed.Shell
