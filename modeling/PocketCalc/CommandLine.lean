import PocketCalc.Request

/-!
# Command line

How the words of a command line are read. Options and keys may come in any order up to a word `--`,
after which every word is a key. A request for the version and an unknown option end the reading
where they stand; every other fault of usage is seen once all words are read. There is no text of
help here, and an option that asks for it is unknown.
-/
namespace PocketCalc

namespace Request

inductive Flag where
  | degrees | inverse | version
  | eval (expression : Option Text)
  | unknown
  deriving DecidableEq, Repr

/-- The value after an `=`, which may be doubled. -/
def valueText (text : Text) : Text :=
  text.dropWhile (· == '=')

/-- Letters after one dash. The expression of an `e` is the rest of the word or else the next
word. -/
def shortFlags : (letters : Text) → List Flag
  | [] => []
  | letter :: rest =>
    if letter = 'd' then .degrees :: shortFlags rest
    else if letter = 'i' then .inverse :: shortFlags rest
    else if letter = 'V' then .version :: shortFlags rest
    else if letter = 'e' then [.eval (if rest.isEmpty then none else some (valueText rest))]
    else [.unknown]

def longFlag (option : Text) : Flag :=
  let name := option.takeWhile (· != '=')
  let value := option.dropWhile (· != '=')
  if name = "degrees".toList then .degrees
  else if name = "inverse".toList then .inverse
  else if name = "version".toList then .version
  else if name = "eval".toList then .eval (if value.isEmpty then none else some (valueText value))
  else .unknown

/-- The flags of a word, if it is an option: a lone dash is none. -/
def flags? : (word : Text) → Option (List Flag)
  | '-' :: '-' :: option => some [longFlag (option.dropWhile (· == '-'))]
  | '-' :: letter :: rest => some (shortFlags (letter :: rest))
  | _ => none

/-- What the words so far have given, and how often each option was among them. -/
structure Given where
  degrees : Nat
  inverse : Nat
  evals : Nat
  expression : Option Text
  awaiting : Bool
  keys : List Text
  deriving DecidableEq, Repr

def takeFlag (given : Given) : Flag → Except Stop Given
  | .degrees => .ok { given with degrees := given.degrees + 1 }
  | .inverse => .ok { given with inverse := given.inverse + 1 }
  | .version => .error .version
  | .eval none => .ok { given with evals := given.evals + 1, awaiting := true }
  | .eval (some expression) =>
    .ok { given with evals := given.evals + 1, expression := some expression }
  | .unknown => .error .usage

def takeFlags (given : Given) : List Flag → Except Stop Given
  | [] => .ok given
  | flag :: rest =>
    match takeFlag given flag with
    | .error stop => .error stop
    | .ok next => takeFlags next rest

def takeWords (given : Given) : List Text → Except Stop Given
  | [] => .ok given
  | word :: rest =>
    if word = "--".toList then .ok { given with keys := given.keys ++ rest }
    else
      match flags? word with
      | some flags =>
        match takeFlags { given with awaiting := false } flags with
        | .error stop => .error stop
        | .ok next => takeWords next rest
      | none =>
        if given.awaiting then
          takeWords { given with expression := some word, awaiting := false } rest
        else takeWords { given with keys := given.keys ++ [word] } rest

/-- An expression is not given beside keys, and no option is given twice. -/
def ofGiven (given : Given) : Except Stop Arguments :=
  if 1 < given.degrees ∨ 1 < given.inverse ∨ 1 < given.evals then .error .usage
  else if given.evals = 1 then
    match given.expression, given.keys with
    | some expression, [] => .ok ⟨given.degrees != 0, given.inverse != 0, some expression, []⟩
    | _, _ => .error .usage
  else .ok ⟨given.degrees != 0, given.inverse != 0, none, given.keys⟩

def readWords (words : List Text) : Except Stop Arguments :=
  match takeWords ⟨0, 0, 0, none, false, []⟩ words with
  | .ok given => ofGiven given
  | .error stop => .error stop

def ofWords (words : List Text) : Request :=
  ofReading (readWords words)

end Request

def runCommand (words : List Text) (input : List UInt8) : Outcome :=
  Request.runCommandBy Request.readWords words input

end PocketCalc
