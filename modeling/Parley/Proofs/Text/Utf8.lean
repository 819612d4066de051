import Parley.Proofs.Text.Split
import Parley.Text.Utf8

namespace Parley.Utf8

theorem scalar?_toNat {least n : Nat} {c : Char} (hn : n = c.toNat) (h : least ≤ n) :
    scalar? least n = some c := by
  subst hn
  have hv : c.toNat.isValidChar := c.valid
  rw [scalar?, dif_pos ⟨h, hv⟩]
  exact congrArg some (Char.ext rfl)

theorem toNat_ofNat {n : Nat} (h : n < 256) : (UInt8.ofNat n).toNat = n := by
  simp only [UInt8.toNat_ofNat']
  omega

theorem tail?_ofNat (n : Nat) : tail? (UInt8.ofNat (0x80 + n % 64)) = some (n % 64) := by
  have hn : (UInt8.ofNat (0x80 + n % 64)).toNat = 0x80 + n % 64 := toNat_ofNat (by omega)
  rw [tail?, hn, if_pos (by omega)]
  exact congrArg some (by omega)

theorem toNat_lt (c : Char) : c.toNat < 0x110000 := by
  have hv : c.toNat.isValidChar := c.valid
  unfold Nat.isValidChar at hv
  omega

theorem lead?_encodeChar (c : Char) (rest : Bytes) : ∃ a tail,
    encodeChar c = a :: tail ∧ lead? a (tail ++ rest) = some (c, tail.length) := by
  have hc := toNat_lt c
  by_cases h1 : c.toNat < 0x80
  · have ha := toNat_ofNat (n := c.toNat) (by omega)
    refine ⟨UInt8.ofNat c.toNat, [], by simp only [encodeChar, if_pos h1], ?_⟩
    simp only [lead?, ha, if_pos h1, scalar?_toNat rfl (Nat.zero_le _)]
    rfl
  · by_cases h2 : c.toNat < 0x800
    · have ha := toNat_ofNat (n := 0xC0 + c.toNat / 64) (by omega)
      refine ⟨UInt8.ofNat (0xC0 + c.toNat / 64), [UInt8.ofNat (0x80 + c.toNat % 64)],
        by simp only [encodeChar, if_neg h1, if_pos h2], ?_⟩
      have hs : scalar? 0x80 ((0xC0 + c.toNat / 64 - 0xC0) * 64 + c.toNat % 64) = some c :=
        scalar?_toNat (by omega) (by omega)
      simp only [lead?, ha, List.cons_append, tail?_ofNat, hs, Option.bind_eq_bind,
        Option.bind_some]
      rw [if_neg (by omega), if_neg (by omega), if_pos (by omega)]
      rfl
    · by_cases h3 : c.toNat < 0x10000
      · have ha := toNat_ofNat (n := 0xE0 + c.toNat / 4096) (by omega)
        refine ⟨UInt8.ofNat (0xE0 + c.toNat / 4096), [UInt8.ofNat (0x80 + c.toNat / 64 % 64),
          UInt8.ofNat (0x80 + c.toNat % 64)],
          by simp only [encodeChar, if_neg h1, if_neg h2, if_pos h3], ?_⟩
        have hs : scalar? 0x800 (((0xE0 + c.toNat / 4096 - 0xE0) * 64 + c.toNat / 64 % 64) * 64 +
            c.toNat % 64) = some c := scalar?_toNat (by omega) (by omega)
        simp only [lead?, ha, List.cons_append, tail?_ofNat, hs, Option.bind_eq_bind,
          Option.bind_some]
        rw [if_neg (by omega), if_neg (by omega), if_neg (by omega), if_pos (by omega)]
        rfl
      · have ha := toNat_ofNat (n := 0xF0 + c.toNat / 262144) (by omega)
        refine ⟨UInt8.ofNat (0xF0 + c.toNat / 262144), [UInt8.ofNat (0x80 + c.toNat / 4096 % 64),
          UInt8.ofNat (0x80 + c.toNat / 64 % 64), UInt8.ofNat (0x80 + c.toNat % 64)],
          by simp only [encodeChar, if_neg h1, if_neg h2, if_neg h3], ?_⟩
        have hs : scalar? 0x10000 ((((0xF0 + c.toNat / 262144 - 0xF0) * 64 +
            c.toNat / 4096 % 64) * 64 + c.toNat / 64 % 64) * 64 + c.toNat % 64) = some c :=
          scalar?_toNat (by omega) (by omega)
        simp only [lead?, ha, List.cons_append, tail?_ofNat, hs, Option.bind_eq_bind,
          Option.bind_some]
        rw [if_neg (by omega), if_neg (by omega), if_neg (by omega), if_neg (by omega),
          if_pos (by omega)]
        rfl

theorem glyphsFrom_append (tail rest : Bytes) :
    glyphsFrom tail.length (tail ++ rest) = glyphsFrom 0 rest := by
  induction tail with
  | nil => rfl
  | cons b bs ih => exact ih

theorem glyphs_encode (cs : List Char) : glyphs (encode cs) = cs.map .char := by
  induction cs with
  | nil => rfl
  | cons c cs ih =>
      obtain ⟨a, tail, ha, hl⟩ := lead?_encodeChar c (encode cs)
      change glyphsFrom 0 (encodeChar c ++ encode cs) = _
      rw [ha, List.cons_append, glyphsFrom, hl]
      simp only [glyphsFrom_append, List.map_cons]
      exact congrArg _ ih

theorem decode?_encode (cs : List Char) : decode? (encode cs) = some cs := by
  rw [decode?, glyphs_encode]
  induction cs with
  | nil => rfl
  | cons c cs ih => simp [List.mapM_cons, ih, Glyph.char?]

theorem toNat_scalar? {least n : Nat} {c : Char} (h : scalar? least n = some c) :
    least ≤ n ∧ c.toNat = n := by
  by_cases hn : least ≤ n ∧ n.isValidChar
  · rw [scalar?, dif_pos hn] at h
    cases h
    exact ⟨hn.1, rfl⟩
  · rw [scalar?, dif_neg hn] at h
    cases h

theorem toNat_tail? {b : UInt8} {x : Nat} (h : tail? b = some x) :
    b.toNat = 0x80 + x ∧ x < 64 := by
  rw [tail?] at h
  split at h
  · have hx := Option.some.inj h
    omega
  · cases h

theorem ofNat_eq {b : UInt8} {n : Nat} (h : n = b.toNat) : UInt8.ofNat n = b := by
  rw [h, UInt8.ofNat_toNat]

theorem encode_cons (c : Char) (cs : List Char) :
    encode (c :: cs) = encodeChar c ++ encode cs :=
  List.flatMap_cons

theorem encodeChar_two {c : Char} {a b : UInt8} {x : Nat} (ha : 0xC0 ≤ a.toNat)
    (ha' : a.toNat < 0xE0)
    (hb : tail? b = some x) (hc : scalar? 0x80 ((a.toNat - 0xC0) * 64 + x) = some c) :
    encodeChar c = [a, b] := by
  obtain ⟨hl, hc⟩ := toNat_scalar? hc
  obtain ⟨hb, hx⟩ := toNat_tail? hb
  simp only [encodeChar, hc]
  rw [if_neg (by omega), if_pos (by omega), ofNat_eq (b := a) (by omega),
    ofNat_eq (b := b) (by omega)]

theorem encodeChar_three {c : Char} {a b b' : UInt8} {x y : Nat} (ha : 0xE0 ≤ a.toNat)
    (ha' : a.toNat < 0xF0) (hb : tail? b = some x) (hb' : tail? b' = some y)
    (hc : scalar? 0x800 (((a.toNat - 0xE0) * 64 + x) * 64 + y) = some c) :
    encodeChar c = [a, b, b'] := by
  obtain ⟨hl, hc⟩ := toNat_scalar? hc
  obtain ⟨hb, hx⟩ := toNat_tail? hb
  obtain ⟨hb', hy⟩ := toNat_tail? hb'
  simp only [encodeChar, hc]
  rw [if_neg (by omega), if_neg (by omega), if_pos (by omega), ofNat_eq (b := a) (by omega),
    ofNat_eq (b := b) (by omega), ofNat_eq (b := b') (by omega)]

theorem encodeChar_four {c : Char} {a b b' b'' : UInt8} {x y z : Nat} (ha : 0xF0 ≤ a.toNat)
    (hb : tail? b = some x) (hb' : tail? b' = some y) (hb'' : tail? b'' = some z)
    (hc : scalar? 0x10000 ((((a.toNat - 0xF0) * 64 + x) * 64 + y) * 64 + z) = some c) :
    encodeChar c = [a, b, b', b''] := by
  obtain ⟨hl, hc⟩ := toNat_scalar? hc
  obtain ⟨hb, hx⟩ := toNat_tail? hb
  obtain ⟨hb', hy⟩ := toNat_tail? hb'
  obtain ⟨hb'', hz⟩ := toNat_tail? hb''
  simp only [encodeChar, hc]
  rw [if_neg (by omega), if_neg (by omega), if_neg (by omega), ofNat_eq (b := a) (by omega),
    ofNat_eq (b := b) (by omega), ofNat_eq (b := b') (by omega), ofNat_eq (b := b'') (by omega)]

theorem lead?_sound {a : UInt8} {rest : Bytes} {c : Char} {k : Nat}
    (h : lead? a rest = some (c, k)) :
    ∃ tail after, rest = tail ++ after ∧ tail.length = k ∧ encodeChar c = a :: tail := by
  unfold lead? at h
  simp only [Option.bind_eq_bind] at h
  split at h
  · next hn =>
    obtain ⟨d, hs, he⟩ := Option.map_eq_some_iff.1 h
    cases he
    obtain ⟨-, hc⟩ := toNat_scalar? hs
    refine ⟨[], rest, rfl, rfl, ?_⟩
    simp only [encodeChar, hc, if_pos hn, UInt8.ofNat_toNat]
  · split at h
    · cases h
    · split at h
      · split at h
        · next b after =>
          obtain ⟨x, hx, h⟩ := Option.bind_eq_some_iff.1 h
          obtain ⟨d, hs, he⟩ := Option.map_eq_some_iff.1 h
          cases he
          exact ⟨[b], after, rfl, rfl, encodeChar_two (by omega) (by omega) hx hs⟩
        · cases h
      · split at h
        · split at h
          · next b b' after =>
            obtain ⟨x, hx, h⟩ := Option.bind_eq_some_iff.1 h
            obtain ⟨y, hy, h⟩ := Option.bind_eq_some_iff.1 h
            obtain ⟨d, hs, he⟩ := Option.map_eq_some_iff.1 h
            cases he
            exact ⟨[b, b'], after, rfl, rfl, encodeChar_three (by omega) (by omega) hx hy hs⟩
          · cases h
        · split at h
          · split at h
            · next b b' b'' after =>
              obtain ⟨x, hx, h⟩ := Option.bind_eq_some_iff.1 h
              obtain ⟨y, hy, h⟩ := Option.bind_eq_some_iff.1 h
              obtain ⟨z, hz, h⟩ := Option.bind_eq_some_iff.1 h
              obtain ⟨d, hs, he⟩ := Option.map_eq_some_iff.1 h
              cases he
              exact ⟨[b, b', b''], after, rfl, rfl, encodeChar_four (by omega) hx hy hz hs⟩
            · cases h
          · cases h

/-- Bytes that spell a text are those that are written for it. -/
theorem decode?_eq_some_iff {bs : Bytes} {cs : List Char} :
    decode? bs = some cs ↔ bs = encode cs := by
  refine ⟨fun h => ?_, fun h => h ▸ decode?_encode cs⟩
  rw [decode?, glyphs] at h
  induction hn : bs.length using Nat.strongRecOn generalizing bs cs with
  | ind n ih =>
      cases bs with
      | nil => cases h; rfl
      | cons a rest =>
          rw [glyphsFrom] at h
          split at h
          · next c k hl =>
            obtain ⟨tail, after, rfl, rfl, hc⟩ := lead?_sound hl
            rw [glyphsFrom_append, List.mapM_cons] at h
            obtain ⟨d, hd, h⟩ := Option.bind_eq_some_iff.1 h
            obtain ⟨ds, hds, h⟩ := Option.bind_eq_some_iff.1 h
            cases hd
            cases h
            have hlen : after.length < n := by
              rw [← hn, List.length_cons, List.length_append]
              omega
            rw [ih _ hlen hds rfl, encode_cons, hc, List.cons_append]
          · rw [List.mapM_cons] at h
            cases h

theorem encode_append (cs ds : List Char) : encode (cs ++ ds) = encode cs ++ encode ds :=
  List.flatMap_append

theorem infix_encode {cs ds : List Char} (h : cs <:+: ds) : encode cs <:+: encode ds := by
  obtain ⟨x, y, rfl⟩ := h
  rw [encode_append, encode_append]
  exact List.infix_append (encode x) (encode cs) (encode y)

theorem encode_intercalate (sep : List Char) (ts : List (List Char)) :
    encode (sep.intercalate ts) = (encode sep).intercalate (ts.map encode) := by
  induction ts with
  | nil => rfl
  | cons t ts ih =>
      cases ts with
      | nil => simp
      | cons t' ts =>
          rw [List.intercalate_cons_cons, encode_append, encode_append, ih]
          simp only [List.map_cons, List.intercalate_cons_cons]

theorem encode_ascii {cs : List Char} (h : ∀ c ∈ cs, c.toNat < 0x80) :
    encode cs = cs.map fun c => UInt8.ofNat c.toNat := by
  induction cs with
  | nil => rfl
  | cons c cs ih =>
      have hc : encodeChar c = [UInt8.ofNat c.toNat] := by
        simp only [encodeChar, if_pos (h c List.mem_cons_self)]
      rw [encode_cons, hc, ih fun d hd => h d (List.mem_cons_of_mem _ hd)]
      rfl

theorem encodeChar_append_inj {c d : Char} {x y : Bytes}
    (h : encodeChar c ++ x = encodeChar d ++ y) : c = d ∧ x = y := by
  obtain ⟨a, t, hc, hl⟩ := lead?_encodeChar c x
  obtain ⟨a', t', hd, hl'⟩ := lead?_encodeChar d y
  have he := h
  rw [hc, hd, List.cons_append, List.cons_append] at he
  obtain ⟨rfl, ht⟩ := List.cons.inj he
  rw [ht, hl'] at hl
  obtain ⟨rfl, -⟩ := Prod.mk.inj (Option.some.inj hl)
  exact ⟨rfl, List.append_cancel_left h⟩

theorem prefix_of_encode {cs ds : List Char} (h : encode cs <+: encode ds) : cs <+: ds := by
  induction cs generalizing ds with
  | nil => exact List.nil_prefix
  | cons c cs ih =>
      obtain ⟨x, hx⟩ := h
      rw [encode_cons, List.append_assoc] at hx
      cases ds with
      | nil =>
          obtain ⟨a, t, hc, -⟩ := lead?_encodeChar c []
          rw [hc] at hx
          cases hx
      | cons d ds =>
          obtain ⟨rfl, hr⟩ := encodeChar_append_inj hx
          exact List.cons_prefix_cons.2 ⟨rfl, ih ⟨x, hr⟩⟩

theorem encode_inj {cs ds : List Char} (h : encode cs = encode ds) : cs = ds := by
  have hd := decode?_encode ds
  rw [← h, decode?_encode] at hd
  exact Option.some.inj hd

theorem encodeChar_tail (c : Char) :
    ∃ a tail, encodeChar c = a :: tail ∧ ∀ b ∈ tail, 0x80 ≤ b.toNat := by
  have hb (n : Nat) : 0x80 ≤ (UInt8.ofNat (0x80 + n % 64)).toNat := by
    rw [toNat_ofNat (by omega)]
    omega
  simp only [encodeChar]
  split
  · exact ⟨_, [], rfl, nofun⟩
  · split
    · exact ⟨_, _, rfl, List.forall_mem_singleton.2 (hb _)⟩
    · split
      · exact ⟨_, _, rfl, List.forall_mem_cons.2 ⟨hb _, List.forall_mem_singleton.2 (hb _)⟩⟩
      · exact ⟨_, _, rfl, List.forall_mem_cons.2
          ⟨hb _, List.forall_mem_cons.2 ⟨hb _, List.forall_mem_singleton.2 (hb _)⟩⟩⟩

/-- Text is cut where its bytes are, at a separator that begins with an ASCII character. -/
theorem cut_encode {s : Char} (hs : s.toNat < 0x80) (ss cs : List Char) :
    Text.cut (encode (s :: ss)) (encode cs) =
      (Text.cut (s :: ss) cs).map fun p => (encode p.1, encode p.2) := by
  have hsep : encode (s :: ss) = UInt8.ofNat s.toNat :: encode ss := by
    rw [encode_cons, encodeChar, if_pos hs]
    rfl
  induction cs with
  | nil =>
      rw [hsep]
      rfl
  | cons c cs ih =>
      obtain ⟨a, tail, hc, ht⟩ := encodeChar_tail c
      have he : encode (c :: cs) = a :: (tail ++ encode cs) := by
        rw [encode_cons, hc]
        rfl
      rw [Text.cut]
      split
      · next hp =>
        obtain ⟨t, hp⟩ := List.isPrefixOf_iff_prefix.1 hp
        have hx : encode (c :: cs) = [] ++ (UInt8.ofNat s.toNat :: encode ss) ++ encode t := by
          rw [← hp, encode_append, hsep]
          rfl
        have hd : (c :: cs).drop (s :: ss).length = t := by
          rw [← hp]
          exact List.drop_left
        rw [hx, hsep, Text.cut_append List.not_mem_nil, hd]
        rfl
      · next hp =>
        have hp' : ¬(encode (s :: ss)).isPrefixOf (encode (c :: cs)) = true := fun h =>
          hp (List.isPrefixOf_iff_prefix.2 (prefix_of_encode (List.isPrefixOf_iff_prefix.1 h)))
        have hm : UInt8.ofNat s.toNat ∉ tail := fun h => by
          have := ht _ h
          rw [toNat_ofNat (by omega)] at this
          omega
        rw [he] at hp' ⊢
        rw [hsep] at hp' ih ⊢
        rw [Text.cut, if_neg hp', Text.cut_append_left hm, ih, Option.map_map, Option.map_map,
          Option.map_map]
        congr 1
        funext p
        change (a :: (tail ++ encode p.1), encode p.2) = (encode (c :: p.1), encode p.2)
        rw [encode_cons, hc]
        rfl

theorem mem_encode {c : Char} (hc : c.toNat < 0x80) {cs : List Char} :
    UInt8.ofNat c.toNat ∈ encode cs ↔ c ∈ cs := by
  have h := cut_encode hc [] cs
  have hs : encode [c] = [UInt8.ofNat c.toNat] := encode_ascii (List.forall_mem_singleton.2 hc)
  have hn : Text.cut [UInt8.ofNat c.toNat] (encode cs) = none ↔ Text.cut [c] cs = none := by
    rw [← hs, h, Option.map_eq_none_iff]
  rw [Text.cut_singleton_eq_none, Text.cut_singleton_eq_none] at hn
  exact Decidable.not_iff_not.1 hn

theorem ofNat_cons_lt {m n : Nat} (hm : m < 256) (hn : n < 256) {x y : Bytes} :
    UInt8.ofNat m :: x < UInt8.ofNat n :: y ↔ m < n ∨ m = n ∧ x < y := by
  rw [List.cons_lt_cons_iff, UInt8.lt_iff_toNat_lt, ← UInt8.toNat_inj, toNat_ofNat hm,
    toNat_ofNat hn]

/-- A smaller character has smaller bytes: fewer of them begin with a smaller one, and as many are
its digits from the highest down. -/
theorem encodeChar_append_lt {c d : Char} (h : c < d) (x y : Bytes) :
    encodeChar c ++ x < encodeChar d ++ y := by
  have hd := toNat_lt d
  have hcd : c.toNat < d.toNat := h
  simp only [encodeChar]
  repeat' split
  all_goals
    simp (disch := omega) only [List.cons_append, List.nil_append, ofNat_cons_lt]
    omega

theorem encode_lt {cs ds : List Char} (h : cs < ds) : encode cs < encode ds := by
  induction cs generalizing ds with
  | nil =>
      cases ds with
      | nil => exact absurd h (List.not_lt_nil [])
      | cons d ds =>
          obtain ⟨a, tail, hd, -⟩ := encodeChar_tail d
          rw [encode_cons, hd]
          exact List.nil_lt_cons a (tail ++ encode ds)
  | cons c cs ih =>
      cases ds with
      | nil => exact absurd h (List.not_lt_nil (c :: cs))
      | cons d ds =>
          rw [encode_cons, encode_cons]
          rcases List.cons_lt_cons_iff.1 h with hcd | ⟨rfl, ht⟩
          · exact encodeChar_append_lt hcd (encode cs) (encode ds)
          · exact List.append_left_lt (ih ht)

end Parley.Utf8
