import PocketCalc.Key

/-!
# Lines of keys

A line names keys in words. A word that is no name itself stands for the keys that its characters
name one by one; if one of them names none, the whole word is the error.
-/
namespace PocketCalc.Key

def spelled? : (characters : Text) → Option (List Key)
  | [] => some []
  | character :: rest =>
    match ofName? [character], spelled? rest with
    | some key, some keys => some (key :: keys)
    | _, _ => none

def ofWord (word : Text) : Except UnknownKey (List Key) :=
  match ofName? word with
  | some key => .ok [key]
  | none =>
    match spelled? word with
    | some keys => .ok keys
    | none => .error ⟨word⟩

def ofWords : List Text → Except UnknownKey (List Key)
  | [] => .ok []
  | word :: rest =>
    match ofWord word with
    | .error error => .error error
    | .ok keys => (ofWords rest).map (keys ++ ·)

def ofLine (line : Text) : Except UnknownKey (List Key) :=
  ofWords line.words

end PocketCalc.Key
