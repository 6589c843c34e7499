import PocketCalc.Proofs.GlyphPass

/-!
# Normalized texts

A normalized text holds no glyph, and so it is normalized already. The kinds of glyph may be
rewritten in any order, since none of them is a part of another or of what is written for another.
-/
namespace PocketCalc

namespace Glyph

/-- The characters that show the glyph. -/
def text (glyph : Glyph) : Text :=
  glyph.first :: glyph.others

/-- A glyph of one character that is no part of another one, and neither is its operator; nor is it
the operator of the other. -/
def Apart (single other : Glyph) : Prop :=
  single.others = [] ∧ single.first ∉ other.text ∧ single.operator ∉ other.text ∧
    other.operator ≠ single.first

theorem isPrefixOf_map {parts : Text} {rewrite : Char → Char}
    (kept : ∀ part ∈ parts, ∀ character, rewrite character = part ↔ character = part)
    (text : Text) : parts.isPrefixOf (text.map rewrite) = parts.isPrefixOf text := by
  induction parts generalizing text with
  | nil => rfl
  | cons part parts ih =>
    obtain ⟨first, others⟩ := List.forall_mem_cons.mp kept
    cases text with
    | nil => rfl
    | cons character rest =>
      have same : (part == rewrite character) = (part == character) := by
        rw [Bool.eq_iff_iff, beq_iff_eq, beq_iff_eq, eq_comm, first, eq_comm]
      rw [List.map_cons, List.isPrefixOf_cons_cons, List.isPrefixOf_cons_cons, same, ih others]

/-- Rewriting single characters neither makes a glyph nor breaks one that it keeps. -/
theorem replace_map (glyph : Glyph) {rewrite : Char → Char}
    (kept : ∀ part ∈ glyph.text, ∀ character, rewrite character = part ↔ character = part)
    (written : rewrite glyph.operator = glyph.operator) (text : Text) :
    glyph.replace (text.map rewrite) = (glyph.replace text).map rewrite := by
  obtain ⟨first, others⟩ := List.forall_mem_cons.mp kept
  fun_induction Glyph.replace glyph text with
  | case1 => rw [List.map_nil, Glyph.replace]
  | case2 character rest found ih =>
    rw [← first, ← isPrefixOf_map others] at found
    rw [List.map_cons, Glyph.replace, if_pos found, ← List.map_drop, ih, List.map_cons, written]
  | case3 character rest absent ih =>
    rw [← first, ← isPrefixOf_map others] at absent
    rw [List.map_cons, Glyph.replace, if_neg absent, ih, List.map_cons]

theorem Apart.replace_comm {single other : Glyph} (apart : Apart single other) (text : Text) :
    other.replace (single.replace text) = single.replace (other.replace text) := by
  obtain ⟨first, others, operator⟩ := single
  obtain ⟨rfl, unread, unwritten, kept⟩ := apart
  rw [replace_single, replace_single]
  apply replace_map
  · intro part member character
    have read : part ≠ first := fun same => unread (same ▸ member)
    have written : part ≠ operator := fun same => unwritten (same ▸ member)
    split
    next found => simp [found, read.symm, written.symm]
    · rfl
  · rw [if_neg kept]

end Glyph

theorem glyphs_apart : ∀ former ∈ glyphs, ∀ latter ∈ glyphs,
    former = latter ∨ former.Apart latter ∨ latter.Apart former := by
  unfold Glyph.Apart
  decide

/-- Rewriting one kind of glyph after another, their order does not matter. -/
theorem replace_comm {former latter : Glyph} (known : former ∈ glyphs) (known' : latter ∈ glyphs)
    (text : Text) : latter.replace (former.replace text) = former.replace (latter.replace text) := by
  rcases glyphs_apart former known latter known' with rfl | apart | apart
  · rfl
  · exact apart.replace_comm text
  · exact (apart.replace_comm text).symm

theorem foldl_replace_of_perm {table : List Glyph} (reordered : table.Perm glyphs) (text : Text) :
    table.foldl (fun written glyph => glyph.replace written) text = normalize text := by
  apply reordered.foldl_eq'
  intro former known latter known' text
  exact replace_comm (reordered.subset known) (reordered.subset known') text

theorem normalize_normalize (text : Text) : normalize (normalize text) = normalize text :=
  normalize_front (List.append_nil _).symm

theorem normalize_glyph {glyph : Glyph} (known : glyph ∈ glyphs) :
    normalize glyph.text = [glyph.operator] ∧ glyph.text ≠ [glyph.operator] ∧
      glyph.text.head? ≠ some 'ʸ' := by
  rw [normalize_eq_glyphPass]
  have all : ∀ glyph ∈ glyphs, glyphPass glyph.text = [glyph.operator] ∧
      glyph.text ≠ [glyph.operator] ∧ glyph.text.head? ≠ some 'ʸ' := by decide
  exact all glyph known

/-- No glyph is left, nor does any come about. -/
theorem not_infix_normalize {glyph : Glyph} (known : glyph ∈ glyphs) (text : Text) :
    ¬ glyph.text <:+: normalize text := by
  rintro ⟨front, back, occurs⟩
  obtain ⟨alone, distinct, begins⟩ := normalize_glyph known
  have normal : normalize (front ++ glyph.text) = front ++ glyph.text := normalize_front occurs.symm
  have before : normalize front = front := by
    rw [List.append_assoc] at occurs
    exact normalize_front occurs.symm
  -- The text up to the end of the glyph is normal, but normalizing it rewrites the glyph.
  have whole : ¬ cutsGlyph front glyph.text := fun cut => begins cut.2
  rw [normalize_append whole, before, alone, List.append_cancel_left_eq] at normal
  exact distinct normal.symm

/-- Between the two characters of a glyph, a cut leaves both as they are. -/
theorem normalize_append_iff (front back : Text) :
    normalize (front ++ back) = normalize front ++ normalize back ↔ ¬ cutsGlyph front back := by
  constructor
  · rintro same ⟨last, head⟩
    obtain ⟨before, rfl⟩ := List.getLast?_eq_some_iff.mp last
    obtain ⟨behind, rfl⟩ := List.head?_eq_some_iff.mp head
    have joined : normalize (before ++ ['x'] ++ 'ʸ' :: behind) =
        normalize before ++ '^' :: normalize behind := by
      rw [List.append_assoc, normalize_append (by simp [cutsGlyph])]
      simp [normalize_eq_glyphPass, glyphPass]
    have left : normalize (before ++ ['x']) = normalize before ++ ['x'] := by
      rw [normalize_append (by simp [cutsGlyph])]
      simp [normalize_eq_glyphPass, glyphPass, writtenSingle]
    have right : normalize ('ʸ' :: behind) = 'ʸ' :: normalize behind := by
      simp [normalize_eq_glyphPass, glyphPass_cons, writtenSingle]
    rw [joined, left, right] at same
    simpa using congrArg List.length same
  · exact normalize_append

/-- A normalized text holds no glyph and is what one pass from the left writes, whatever the order
of the glyphs. It is normalized already, and it is put together from normalized parts unless a cut
divides a glyph. -/
theorem normalize_glyphFree (text : Text) :
    ('×' ∉ normalize text ∧ '÷' ∉ normalize text ∧ ¬ ['x', 'ʸ'] <:+: normalize text) ∧
      normalize text = glyphPass text ∧
      (∀ table : List Glyph, table.Perm glyphs →
        table.foldl (fun written glyph => glyph.replace written) text = normalize text) ∧
      normalize (normalize text) = normalize text ∧
      ∀ back : Text,
        normalize (text ++ back) = normalize text ++ normalize back ↔ ¬ cutsGlyph text back := by
  have absent {mark operator : Char} (known : ⟨mark, [], operator⟩ ∈ glyphs) :
      mark ∉ normalize text := by
    intro member
    obtain ⟨front, back, split⟩ := List.append_of_mem member
    apply not_infix_normalize known text
    refine ⟨front, back, ?_⟩
    rw [split, List.append_assoc]
    rfl
  have multiplication : ⟨'×', [], '*'⟩ ∈ glyphs := by decide
  have division : ⟨'÷', [], '/'⟩ ∈ glyphs := by decide
  have power : ⟨'x', ['ʸ'], '^'⟩ ∈ glyphs := by decide
  refine ⟨⟨absent multiplication, absent division, not_infix_normalize power text⟩,
    normalize_eq_glyphPass text, ?_, normalize_normalize text, normalize_append_iff text⟩
  intro table reordered
  exact foldl_replace_of_perm reordered text

/-- With the pair rewritten first, a pair within another is rewritten once; a cut within it leaves
two halves. -/
theorem normalize_glyphFree_nestedPair :
    glyphs.reverse.Perm glyphs ∧
      glyphs.reverse.foldl (fun written glyph => glyph.replace written) "2×xxʸʸ".toList =
        "2*x^ʸ".toList ∧
      normalize ("2×xx".toList ++ "ʸʸ".toList) ≠
        normalize "2×xx".toList ++ normalize "ʸʸ".toList := by
  have reordered : glyphs.reverse.Perm glyphs := List.reverse_perm glyphs
  obtain ⟨-, pass, anyOrder, -, -⟩ := normalize_glyphFree "2×xxʸʸ".toList
  obtain ⟨-, -, -, -, parts⟩ := normalize_glyphFree "2×xx".toList
  refine ⟨reordered, ?_, ?_⟩
  · rw [anyOrder _ reordered, pass]
    decide
  · intro same
    exact (parts _).mp same ⟨by decide, by decide⟩

end PocketCalc
