import Parley.Proofs.Json.Literal
import Parley.Proofs.Json.Numeral

namespace Parley.Json

open Utf8 (Glyph)

namespace Term

mutual
def ofJson : Json → Term
  | .null | .float _ => .null
  | .bool b => .bool b
  | .int n => .number (.ofInt n)
  | .str s => .string (.ofString s)
  | .arr vs => .array (ofItems vs)
  | .obj ms => .object (ofMembers ms)

def ofItems : List Json → List Term
  | [] => []
  | v :: vs => ofJson v :: ofItems vs

def ofMembers : Members → List (Literal × Term)
  | [] => []
  | (k, v) :: ms => (.ofString k, ofJson v) :: ofMembers ms
end

/-- Whatever ends the value, its text is read as its term up to there. -/
structure Reads (v : Json) : Prop where
  head : ∃ c cs, v.chars = c :: cs ∧ isBlank c = false ∧ c ≠ ']'
  value : ∀ n rest, 2 * v.chars.length ≤ n + 1 → Ends rest →
    value? (n + 1) (v.chars.map .char ++ rest) = some (ofJson v, rest)

theorem Reads.read {v : Json} (h : Reads v) {n : Nat} (hn : 2 * v.chars.length ≤ n)
    (rest : List Glyph) (he : Ends rest) :
    value? n (v.chars.map .char ++ rest) = some (ofJson v, rest) := by
  obtain ⟨c, cs, hc, -, -⟩ := h.head
  cases n with
  | zero =>
      rw [hc, List.length_cons] at hn
      omega
  | succ n => exact h.value n rest hn he

theorem skipBlank_char {c : Char} (h : isBlank c = false) (gs : List Glyph) :
    skipBlank (.char c :: gs) = .char c :: gs := by
  rw [skipBlank, h]
  rfl

theorem ne_of_digit {c d : Char} (h : 48 ≤ c.toNat ∧ c.toNat ≤ 57)
    (hd : ¬(48 ≤ d.toNat ∧ d.toNat ≤ 57)) : c ≠ d := by
  rintro rfl
  exact hd h

theorem isBlank_of_digit {c : Char} (h : 48 ≤ c.toNat ∧ c.toNat ≤ 57) : isBlank c = false := by
  simp [isBlank, ne_of_digit h (d := ' ') (by decide), ne_of_digit h (d := '\t') (by decide),
    ne_of_digit h (d := '\n') (by decide), ne_of_digit h (d := '\r') (by decide)]

theorem reads_null : Reads .null where
  head := ⟨'n', ['u', 'l', 'l'], rfl, rfl, by decide⟩
  value := fun _ _ _ _ => rfl

theorem reads_bool (b : Bool) : Reads (.bool b) where
  head := by
    cases b with
    | false => exact ⟨'f', ['a', 'l', 's', 'e'], rfl, rfl, by decide⟩
    | true => exact ⟨'t', ['r', 'u', 'e'], rfl, rfl, by decide⟩
  value := by
    intro n rest _ _
    cases b <;> rfl

theorem value?_quote {n : Nat} {gs : List Glyph} :
    value? (n + 1) (.char '"' :: gs) = (literal? gs).map fun (s, r) => (.string s, r) := rfl

theorem value?_minus {n : Nat} {gs : List Glyph} :
    value? (n + 1) (.char '-' :: gs) = (numeral? true gs).map fun (x, r) => (.number x, r) := rfl

theorem value?_bracket {n : Nat} {gs : List Glyph} :
    value? (n + 1) (.char '[' :: gs) =
      match skipBlank gs with
      | .char ']' :: gs => some (.array [], gs)
      | gs => (items? n gs).map fun (ts, r) => (.array ts, r) := rfl

theorem members?_quote {n : Nat} {gs : List Glyph} :
    members? (n + 1) (.char '"' :: gs) = (do
      let (k, gs) ← literal? gs
      match skipBlank gs with
      | .char ':' :: gs =>
        let (t, gs) ← value? n gs
        match skipBlank gs with
        | .char ',' :: gs => (members? n gs).map fun (ms, r) => ((k, t) :: ms, r)
        | .char '\x7d' :: gs => some ([(k, t)], gs)
        | _ => none
      | _ => none) := rfl

theorem reads_str (s : String) : Reads (.str s) where
  head := ⟨'"', s.toList.flatMap escapeChar ++ ['"'], rfl, rfl, by decide⟩
  value := by
    intro n rest _ _
    rw [chars, quote, List.cons_append, List.map_cons, List.cons_append, value?_quote,
      literal?_quote]
    rfl

theorem value?_digits (n m : Nat) {rest : List Glyph} (h : Ends rest) :
    value? (n + 1) ((Decimal.digits m).map .char ++ rest) =
      some (.number (.ofNat false m), rest) := by
  have hm := numeral?_digits false m h
  obtain ⟨c, cs, hd⟩ := List.exists_cons_of_ne_nil (Decimal.digits_ne_nil m)
  have hc := Decimal.mem_digits (n := m) (hd ▸ List.mem_cons_self : c ∈ Decimal.digits m)
  rw [hd, List.map_cons, List.cons_append] at hm
  rw [hd, List.map_cons, List.cons_append, value?, skipBlank_char (isBlank_of_digit hc)]
  split
  case h_8 =>
    rw [hm]
    rfl
  all_goals next h =>
    exact absurd (Glyph.char.inj (List.cons.inj h).1) (ne_of_digit hc (by decide))

theorem reads_int (k : Int) : Reads (.int k) where
  head := by
    cases k with
    | ofNat m =>
        obtain ⟨c, cs, hd⟩ := List.exists_cons_of_ne_nil (Decimal.digits_ne_nil m)
        have hc := Decimal.mem_digits (n := m) (hd ▸ List.mem_cons_self : c ∈ Decimal.digits m)
        exact ⟨c, cs, hd, isBlank_of_digit hc, ne_of_digit hc (by decide)⟩
    | negSucc m => exact ⟨'-', Decimal.digits (m + 1), rfl, rfl, by decide⟩
  value := by
    intro n rest _ h
    cases k with
    | ofNat m => exact value?_digits n m h
    | negSucc m =>
        rw [chars, Decimal.integer, List.map_cons, List.cons_append, value?_minus,
          numeral?_digits true _ h]
        rfl

theorem itemChars_cons_cons (v w : Json) (vs : List Json) :
    itemChars (v :: w :: vs) = chars v ++ ',' :: itemChars (w :: vs) := rfl

theorem memberChars_cons_cons (k : String) (v : Json) (m : String × Json) (ms : Members) :
    memberChars ((k, v) :: m :: ms) =
      quote k.toList ++ ':' :: chars v ++ ',' :: memberChars (m :: ms) := rfl

theorem items?_last {n : Nat} {gs gs' : List Glyph} {t : Term}
    (h : value? n gs = some (t, .char ']' :: gs')) : items? (n + 1) gs = some ([t], gs') := by
  rw [items?, h]
  rfl

theorem items?_more {n : Nat} {gs gs' : List Glyph} {t : Term}
    (h : value? n gs = some (t, .char ',' :: gs')) :
    items? (n + 1) gs = (items? n gs').map fun (ts, r) => (t :: ts, r) := by
  rw [items?, h]
  rfl

theorem items?_chars {vs : List Json} (h : ∀ v ∈ vs, Reads v) (hne : vs ≠ []) (n : Nat)
    (rest : List Glyph) (hn : 2 * (itemChars vs).length + 1 ≤ n) :
    items? n ((itemChars vs).map .char ++ .char ']' :: rest) = some (ofItems vs, rest) := by
  induction vs generalizing n with
  | nil => exact absurd rfl hne
  | cons v vs ih =>
      have hv := h v List.mem_cons_self
      cases n with
      | zero => omega
      | succ n =>
          cases vs with
          | nil =>
              rw [itemChars] at hn ⊢
              rw [items?_last (hv.read (by omega) _ (.inr (.inl rfl)))]
              rfl
          | cons w vs =>
              have ht := fun n => ih (fun v hv => h v (List.mem_cons_of_mem _ hv)) (by simp) n
              rw [itemChars_cons_cons, List.length_append, List.length_cons] at hn
              rw [itemChars_cons_cons, List.map_append, List.map_cons, List.append_assoc,
                List.cons_append, items?_more (hv.read (by omega) _ (.inl rfl)), ht n (by omega)]
              rfl

theorem value?_items {n : Nat} {c : Char} {gs : List Glyph} (hb : isBlank c = false)
    (hc : c ≠ ']') :
    value? (n + 1) (.char '[' :: .char c :: gs) =
      (items? n (.char c :: gs)).map fun (ts, r) => (.array ts, r) := by
  rw [value?_bracket, skipBlank_char hb]
  split
  · next h => exact absurd (Glyph.char.inj (List.cons.inj h).1) hc
  · rfl

theorem reads_arr {vs : List Json} (h : ∀ v ∈ vs, Reads v) : Reads (.arr vs) where
  head := ⟨'[', itemChars vs ++ [']'], rfl, rfl, by decide⟩
  value := by
    intro n rest hn _
    cases vs with
    | nil => rfl
    | cons v vs =>
        have hs : ∃ c cs, itemChars (v :: vs) = c :: cs ∧ isBlank c = false ∧ c ≠ ']' := by
          obtain ⟨c, cs, hc, hb⟩ := (h v List.mem_cons_self).head
          cases vs with
          | nil => exact ⟨c, cs, hc, hb⟩
          | cons w vs =>
              exact ⟨c, cs ++ ',' :: itemChars (w :: vs), by rw [itemChars_cons_cons, hc]; rfl, hb⟩
        obtain ⟨c, cs, hc, hb, hne⟩ := hs
        rw [chars, List.cons_append, List.length_cons, List.length_append,
          List.length_singleton] at hn
        have hi := items?_chars h (by simp) n rest (by omega)
        rw [hc] at hi
        rw [chars, List.cons_append, List.map_cons, List.cons_append, List.map_append,
          List.append_assoc, hc, List.map_cons, List.cons_append, value?_items hb hne]
        exact hi ▸ rfl

theorem members?_member {n : Nat} {gs gs' r : List Glyph} {k : Literal} {t : Term}
    (hk : literal? gs = some (k, .char ':' :: gs')) (ht : value? n gs' = some (t, r)) :
    members? (n + 1) (.char '"' :: gs) =
      match skipBlank r with
      | .char ',' :: gs => (members? n gs).map fun (ms, r) => ((k, t) :: ms, r)
      | .char '\x7d' :: gs => some ([(k, t)], gs)
      | _ => none := by
  have hc : skipBlank (.char ':' :: gs') = .char ':' :: gs' := rfl
  simp only [members?_quote, hk, Option.bind_eq_bind, Option.bind_some, hc, ht]

theorem literal?_name (k : String) (cs : List Char) (rest : List Glyph) :
    literal? ((k.toList.flatMap escapeChar ++ ['"'] ++ ':' :: cs).map .char ++ rest) =
      some (.ofString k, .char ':' :: (cs.map .char ++ rest)) := by
  rw [List.map_append, List.append_assoc, literal?_quote]
  rfl

theorem members?_chars {ms : Members} (h : ∀ m ∈ ms, Reads m.2) (hne : ms ≠ []) (n : Nat)
    (rest : List Glyph) (hn : 2 * (memberChars ms).length + 1 ≤ n) :
    members? n ((memberChars ms).map .char ++ .char '\x7d' :: rest) =
      some (ofMembers ms, rest) := by
  induction ms generalizing n with
  | nil => exact absurd rfl hne
  | cons m ms ih =>
      obtain ⟨k, v⟩ := m
      have hv : Reads v := h (k, v) List.mem_cons_self
      cases n with
      | zero => omega
      | succ n =>
          cases ms with
          | nil =>
              simp only [memberChars, quote, List.cons_append, List.length_cons,
                List.length_append] at hn
              have ht := hv.read (n := n) (by omega) (.char '\x7d' :: rest) (.inr (.inr rfl))
              rw [memberChars, quote, List.cons_append, List.cons_append, List.map_cons,
                List.cons_append, members?_member (literal?_name k _ _) ht]
              rfl
          | cons m ms =>
              have hms := fun n => ih (fun v hv => h v (List.mem_cons_of_mem _ hv)) (by simp) n
              simp only [memberChars_cons_cons, quote, List.cons_append, List.length_cons,
                List.length_append] at hn
              have ht := hv.read (n := n) (by omega)
                (.char ',' :: ((memberChars (m :: ms)).map .char ++ .char '\x7d' :: rest))
                (.inl rfl)
              rw [memberChars_cons_cons, List.map_append, List.append_assoc, quote,
                List.cons_append, List.cons_append, List.map_cons, List.cons_append,
                List.map_cons (l := memberChars (m :: ms)), List.cons_append,
                members?_member (literal?_name k _ _) ht]
              have hr := hms n (by omega)
              exact congrArg
                (Option.map fun (ms, r) => ((Literal.ofString k, ofJson v) :: ms, r)) hr

theorem reads_obj {ms : Members} (h : ∀ m ∈ ms, Reads m.2) : Reads (.obj ms) where
  head := ⟨'\x7b', memberChars ms ++ ['\x7d'], rfl, rfl, by decide⟩
  value := by
    intro n rest hn _
    cases ms with
    | nil => rfl
    | cons m ms =>
        have hs : ∃ cs, memberChars (m :: ms) = '"' :: cs := by
          cases ms with
          | nil => exact ⟨_, rfl⟩
          | cons m' ms => exact ⟨_, rfl⟩
        obtain ⟨cs, hc⟩ := hs
        rw [chars, List.cons_append, List.length_cons, List.length_append,
          List.length_singleton] at hn
        have hi := members?_chars h (by simp) n rest (by omega)
        have hv (gs : List Glyph) : value? (n + 1) (.char '\x7b' :: .char '"' :: gs) =
            (members? n (.char '"' :: gs)).map fun (ms, r) => (.object ms, r) := rfl
        rw [hc] at hi
        rw [chars, List.cons_append, List.map_cons, List.cons_append, List.map_append,
          List.append_assoc, hc, List.map_cons, List.cons_append, hv]
        exact hi ▸ rfl

/-- The text of a value, and nothing else, is read as its term. -/
theorem Reads.all {v : Json} (h : Reads v) : read? (v.chars.map .char) = some (ofJson v) := by
  have hv := h.read (n := 2 * (v.chars.map Glyph.char).length + 2)
    (by rw [List.length_map]; omega) [] trivial
  rw [List.append_nil] at hv
  rw [read?, hv]
  rfl

end Term

end Parley.Json
