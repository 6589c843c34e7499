import PocketCalc.Expression.Glyph

/-!
# Glyphs in one pass

Rewriting one kind of glyph after the other is the same as one pass from the left that rewrites
them all, and the pass may be cut anywhere but inside a glyph.
-/
namespace PocketCalc

/-- The operator of a glyph of one character; any other character is its own. -/
def writtenSingle (character : Char) : Char :=
  if character = '×' then '*' else if character = '÷' then '/' else character

/-- Writes every glyph as its operator in one pass and copies all else. -/
def glyphPass : Text → Text
  | 'x' :: 'ʸ' :: rest => '^' :: glyphPass rest
  | character :: rest => writtenSingle character :: glyphPass rest
  | [] => []

/-- Where a glyph of two characters stands across a cut. -/
def cutsGlyph (front back : Text) : Prop :=
  front.getLast? = some 'x' ∧ back.head? = some 'ʸ'

theorem Glyph.replace_single (first operator : Char) (text : Text) :
    (Glyph.mk first [] operator).replace text =
      text.map fun character => if character = first then operator else character := by
  induction text with
  | nil => rw [Glyph.replace, List.map_nil]
  | cons character rest ih =>
    rw [Glyph.replace, List.map_cons]
    by_cases found : character = first
    · simp [found, ih]
    · simp [found, ih]

theorem normalize_eq (text : Text) :
    normalize text = (Glyph.mk 'x' ['ʸ'] '^').replace (text.map writtenSingle) := by
  have composed : ∀ character : Char,
      (if (if character = '×' then '*' else character) = '÷' then '/'
        else if character = '×' then '*' else character) = writtenSingle character := by
    intro character
    unfold writtenSingle
    split <;> simp
  simp [normalize, glyphs, Glyph.replace_single, Function.comp_def, composed]

theorem eq_of_writtenSingle {character letter : Char} (h : writtenSingle character = letter)
    (plain : letter ≠ '*' ∧ letter ≠ '/') : character = letter := by
  unfold writtenSingle at h
  split at h
  · exact absurd h.symm plain.1
  · split at h
    · exact absurd h.symm plain.2
    · exact h

theorem normalize_eq_glyphPass (text : Text) : normalize text = glyphPass text := by
  rw [normalize_eq]
  fun_induction glyphPass text with
  | case1 rest ih =>
    rw [List.map_cons, List.map_cons, Glyph.replace, if_pos (by simp [writtenSingle]), ← ih]
    rfl
  | case2 character rest apart ih =>
    have copied : ¬ (writtenSingle character = 'x' ∧
        ['ʸ'].isPrefixOf (rest.map writtenSingle) = true) := by
      rintro ⟨same, begins⟩
      cases rest with
      | nil => cases begins
      | cons next others =>
        have second : 'ʸ' = writtenSingle next := by simpa using begins
        exact apart others (eq_of_writtenSingle same (by decide))
          (by rw [eq_of_writtenSingle second.symm (by decide)])
    rw [List.map_cons, Glyph.replace, if_neg copied, ih]
  | case3 => rw [List.map_nil, Glyph.replace]

theorem glyphPass_cons {character : Char} {rest : Text}
    (whole : ¬ (character = 'x' ∧ rest.head? = some 'ʸ')) :
    glyphPass (character :: rest) = writtenSingle character :: glyphPass rest := by
  rw [glyphPass]
  rintro others rfl rfl
  exact whole ⟨rfl, rfl⟩

theorem glyphPass_append {front back : Text} (whole : ¬ cutsGlyph front back) :
    glyphPass (front ++ back) = glyphPass front ++ glyphPass back := by
  fun_induction glyphPass front with
  | case1 rest ih =>
    rw [List.cons_append, List.cons_append, glyphPass, ih, List.cons_append]
    rintro ⟨last, head⟩
    cases rest with
    | nil => cases last
    | cons next others => exact whole ⟨last, head⟩
  | case2 character rest apart ih =>
    rw [List.cons_append, glyphPass_cons, ih, List.cons_append]
    · rintro ⟨last, head⟩
      cases rest with
      | nil => cases last
      | cons next others => exact whole ⟨last, head⟩
    · rintro ⟨rfl, head⟩
      cases rest with
      | nil => exact whole ⟨rfl, head⟩
      | cons next others => exact apart others rfl (by cases head; rfl)
  | case3 => rfl

theorem writtenSingle_writtenSingle (character : Char) :
    writtenSingle (writtenSingle character) = writtenSingle character := by
  by_cases multiplied : character = '×'
  · simp [writtenSingle, multiplied]
  · by_cases divided : character = '÷'
    · simp [writtenSingle, divided]
    · simp [writtenSingle, multiplied, divided]

theorem head?_of_glyphPass {text : Text} (h : (glyphPass text).head? = some 'ʸ') :
    text.head? = some 'ʸ' := by
  unfold glyphPass at h
  split at h
  · exact absurd (Option.some.inj h) (by decide)
  next character rest _ =>
    rw [List.head?_cons, eq_of_writtenSingle (Option.some.inj h) (by decide)]
  · cases h

/-- The beginning of a normalized text holds no glyph. -/
theorem glyphPass_front {text front back : Text} (h : glyphPass text = front ++ back) :
    glyphPass front = front := by
  fun_induction glyphPass text generalizing front with
  | case1 rest ih =>
    cases front with
    | nil => rfl
    | cons first front =>
      obtain ⟨rfl, later⟩ := List.cons.inj h
      rw [glyphPass_cons (by simp), ih later]
      rfl
  | case2 character rest apart ih =>
    cases front with
    | nil => rfl
    | cons first front =>
      obtain ⟨rfl, later⟩ := List.cons.inj h
      have whole : ¬ (writtenSingle character = 'x' ∧ front.head? = some 'ʸ') := by
        rintro ⟨same, second⟩
        have head : (glyphPass rest).head? = some 'ʸ' := by simp [later, second]
        obtain ⟨others, rfl⟩ := List.head?_eq_some_iff.mp (head?_of_glyphPass head)
        exact apart others (eq_of_writtenSingle same (by decide)) rfl
      rw [glyphPass_cons whole, ih later, writtenSingle_writtenSingle]
  | case3 =>
    obtain ⟨rfl, -⟩ := List.append_eq_nil_iff.mp h.symm
    rfl

theorem normalize_front {text front back : Text} (h : normalize text = front ++ back) :
    normalize front = front := by
  rw [normalize_eq_glyphPass] at *
  exact glyphPass_front h

/-- Normalization may be cut anywhere but between the two characters of a glyph. -/
theorem normalize_append {front back : Text} (whole : ¬ cutsGlyph front back) :
    normalize (front ++ back) = normalize front ++ normalize back := by
  simp only [normalize_eq_glyphPass]
  exact glyphPass_append whole

end PocketCalc
