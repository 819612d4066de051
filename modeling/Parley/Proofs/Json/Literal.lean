import Parley.Json.Printer
import Parley.Json.Term

namespace Parley.Json

open Utf8 (Glyph)

namespace Literal

/-- The piece that is read where a character is quoted. -/
def ofChar (c : Char) : Piece :=
  match c with
  | '\x08' | '\t' | '\n' | '\x0c' | '\r' => .char c
  | c => if c.toNat < 0x20 then .unit c.toNat else .char c

def ofString (s : String) : Literal := s.toList.map ofChar

theorem chars?_unit {n : Nat} (h : n < 0xD800) (l : Literal) :
    chars? (.unit n :: l) = (chars? l).map (Char.ofNat n :: ·) := by
  have hs : ¬0xD800 ≤ n := by omega
  have ht : ¬0xDC00 ≤ n := by omega
  cases l with
  | nil => simp [chars?, hs]
  | cons p l => cases p <;> simp [chars?, hs, ht]

theorem chars?_ofChar (c : Char) (l : Literal) :
    chars? (ofChar c :: l) = (chars? l).map (c :: ·) := by
  unfold ofChar
  split
  · rfl
  · rfl
  · rfl
  · rfl
  · rfl
  · split
    · next h => rw [chars?_unit (by omega), Char.ofNat_toNat]
    · rfl

theorem text?_ofString (s : String) : text? (ofString s) = some s := by
  have h : ∀ cs : List Char, chars? (cs.map ofChar) = some cs := by
    intro cs
    induction cs with
    | nil => rfl
    | cons c cs ih => rw [List.map_cons, chars?_ofChar, ih, Option.map_some]
  rw [text?, ofString, h, Option.map_some, String.ofList_toList]

end Literal

namespace Term

theorem hexOf?_hexDigit : ∀ n < 16, hexOf? (.char (hexDigit n)) = some n := by
  decide

theorem literal?_escape {e c : Char} (h : escape? e = some c) (gs : List Glyph) :
    literal? (.char '\\' :: .char e :: gs) =
      (literal? gs).map fun (s, r) => (.char c :: s, r) := by
  have he : e ≠ 'u' := by
    rintro rfl
    cases h
  rw [literal?.eq_def]
  split
  · next h' => cases h'
  · next h' =>
    cases h'
    exact absurd rfl he
  · next h' =>
    cases h'
    rw [h]
    cases literal? gs <;> rfl
  · next hn h' =>
    cases h'
    exact absurd rfl (hn e gs rfl)
  · next h' => cases h'
  · next h' => cases h'

theorem literal?_unit {n : Nat} (h : n < 0x20) (gs : List Glyph) :
    literal? (['\\', 'u', '0', '0', hexDigit (n / 16), hexDigit (n % 16)].map .char ++ gs) =
      (literal? gs).map fun (s, r) => (.unit n :: s, r) := by
  have h0 : hexOf? (.char '0') = some 0 := rfl
  have ha := hexOf?_hexDigit (n / 16) (by omega)
  have hb := hexOf?_hexDigit (n % 16) (by omega)
  have hn : ((0 * 16 + 0) * 16 + n / 16) * 16 + n % 16 = n := by omega
  simp only [List.map_cons, List.map_nil, List.cons_append, List.nil_append, literal?, h0, ha,
    hb, Option.bind_eq_bind, Option.bind_some, hn]
  cases literal? gs <;> rfl

theorem literal?_char {c : Char} (hq : c ≠ '"') (hb : c ≠ '\\') (hc : ¬c.toNat < 0x20)
    (gs : List Glyph) :
    literal? (.char c :: gs) = (literal? gs).map fun (s, r) => (.char c :: s, r) := by
  rw [literal?.eq_def]
  split
  · next h => exact absurd (Glyph.char.inj (List.cons.inj h).1) hq
  · next h => exact absurd (Glyph.char.inj (List.cons.inj h).1) hb
  · next h => exact absurd (Glyph.char.inj (List.cons.inj h).1) hb
  · next h =>
    cases h
    rw [if_neg fun h => h.elim hb hc]
  · next h => cases h
  · next h => cases h

theorem literal?_escapeChar (c : Char) (gs : List Glyph) :
    literal? ((escapeChar c).map .char ++ gs) =
      (literal? gs).map fun (s, r) => (Literal.ofChar c :: s, r) := by
  unfold escapeChar
  split
  · exact literal?_escape rfl gs
  · exact literal?_escape rfl gs
  · exact literal?_escape rfl gs
  · exact literal?_escape rfl gs
  · exact literal?_escape rfl gs
  · exact literal?_escape rfl gs
  · exact literal?_escape rfl gs
  · next hq hb _ _ _ _ _ =>
    split
    · next hc =>
      have ho : Literal.ofChar c = .unit c.toNat := by
        unfold Literal.ofChar
        split <;> first | contradiction | exact if_pos hc
      rw [literal?_unit hc, ho]
    · next hc =>
      have ho : Literal.ofChar c = .char c := by
        unfold Literal.ofChar
        split <;> first | rfl | exact if_neg hc
      rw [List.map_singleton, List.singleton_append, literal?_char hq hb hc, ho]

theorem literal?_quote (cs : List Char) (gs : List Glyph) :
    literal? ((cs.flatMap escapeChar ++ ['"']).map .char ++ gs) =
      some (cs.map Literal.ofChar, gs) := by
  induction cs with
  | nil => rfl
  | cons c cs ih =>
      rw [List.flatMap_cons, List.append_assoc, List.map_append, List.append_assoc,
        literal?_escapeChar, ih]
      rfl

end Term

end Parley.Json
