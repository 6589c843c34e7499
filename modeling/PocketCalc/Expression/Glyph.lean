import PocketCalc.Text.Blank

/-!
# Display glyphs

The display shows some operators as glyphs of their own, one of them two characters long.
`normalize` writes the operator for each, one kind of glyph after the other.
-/
namespace PocketCalc

structure Glyph where
  first : Char
  others : Text
  operator : Char
  deriving DecidableEq, Repr

/-- Writes the operator for every occurrence of the glyph, from the left. -/
def Glyph.replace (glyph : Glyph) : Text → Text
  | [] => []
  | character :: rest =>
    if character = glyph.first ∧ glyph.others.isPrefixOf rest then
      glyph.operator :: glyph.replace (rest.drop glyph.others.length)
    else character :: glyph.replace rest
termination_by text => text.length

def glyphs : List Glyph :=
  [⟨'×', [], '*'⟩, ⟨'÷', [], '/'⟩, ⟨'x', ['ʸ'], '^'⟩]

def normalize (text : Text) : Text :=
  glyphs.foldl (fun written glyph => glyph.replace written) text

end PocketCalc
