import Parley.Proofs.Frame.Header
import Parley.Proofs.Settings.Variable
import Mathlib.Logic.Relation

namespace Parley

namespace Text

theorem toLower_eq (c : Char) :
    c.toLower = c ∨ c.toLower.toNat = c.toNat + 32 ∧ 65 ≤ c.toNat := by
  unfold Char.toLower
  split
  · next h =>
    have hc : c.toNat ≤ 90 := h.2
    refine .inr ⟨?_, h.1⟩
    change (c.val + 32).toNat = c.toNat + 32
    rw [UInt32.toNat_add]
    exact Nat.mod_eq_of_lt (by change c.toNat + 32 < _; omega)
  · exact .inl rfl

theorem eq_of_toLower {c d : Char} (h : c.toLower = d.toLower) (hd : d.toNat < 65) : c = d := by
  have hd' : d.toLower = d := (toLower_eq d).resolve_right (by omega)
  rcases toLower_eq c with hc | ⟨hc, hn⟩
  · rw [← hc, h, hd']
  · rw [h, hd'] at hc
    omega

theorem eq_of_lower {cs ds : List Char} (h : lower cs = lower ds) (hd : ∀ c ∈ ds, c.toNat < 65) :
    cs = ds := by
  rw [lower, lower] at h
  induction ds generalizing cs with
  | nil => exact List.map_eq_nil_iff.1 h
  | cons d ds ih =>
      obtain ⟨hd, hds⟩ := List.forall_mem_cons.1 hd
      obtain ⟨c, cs, rfl, hc, hcs⟩ := List.map_eq_cons_iff.1 h
      rw [eq_of_toLower hc hd, ih hcs hds]

end Text

namespace Frame

open Settings (IsDigit value unsigned?_eq_some)

def lineBreak : Bytes := [13, 10]

def colon : UInt8 := 58

def IsLine (line : Bytes) : Prop := ¬lineBreak <:+: line

instance : DecidablePred IsLine := fun line => inferInstanceAs (Decidable (¬lineBreak <:+: line))

def joined (ls : List Bytes) : Bytes := lineBreak.intercalate ls

def IsField (line : Bytes) (name value : List Char) : Prop :=
  ':' ∉ name ∧ line = Utf8.encode (name ++ ':' :: value)

def folded (text : List Char) : List Char := Text.lower (Text.trim text)

def IsLength (text : List Char) (n : Nat) : Prop :=
  ∃ ds, (Text.trim text = ds ∨ Text.trim text = '+' :: ds) ∧ ds ≠ [] ∧ (∀ c ∈ ds, IsDigit c) ∧
    value 0 ds = n ∧ n < 2 ^ 64

def NamesLength (line : Bytes) : Prop :=
  ∃ name value, IsField line name value ∧ folded name = lengthName

def Announces (line : Bytes) (n : Nat) : Prop :=
  ∃ name value, IsField line name value ∧ folded name = lengthName ∧ IsLength value n

def Other (line : Bytes) : Prop :=
  ∃ name value, IsField line name value ∧ folded name ≠ lengthName

inductive Heard : Option Nat → List Bytes → Option Nat → Prop
  | nil {found} : Heard found [] found
  | other {found r line ls} : Other line → Heard found ls r → Heard found (line :: ls) r
  | length {found r line ls n} : Announces line n → Heard (some n) ls r → Heard found (line :: ls) r

/-- A change to the lines of a header block that does not concern what they say of the length. -/
inductive Edit : List Bytes → List Bytes → Prop
  | insert {line} (before after) : IsLine line → Other line →
      Edit (before ++ after) (before ++ line :: after)
  | delete {line} (before after) : Other line → Edit (before ++ line :: after) (before ++ after)
  | swap {line line'} (before after) : Other line ∨ Other line' →
      Edit (before ++ line :: line' :: after) (before ++ line' :: line :: after)
  | rewrite {line line'} (before after) : Other line → IsLine line' → Other line' →
      Edit (before ++ line :: after) (before ++ line' :: after)
  | respell {line line' name name' value value'} (before after) : IsLine line' →
      IsField line name value → IsField line' name' value' →
      folded name' = folded name → folded value' = folded value →
      Edit (before ++ line :: after) (before ++ line' :: after)

def Readable (line : Bytes) : Prop := Other line ∨ ∃ n, Announces line n

/-- The length is that of the last line for it. -/
def IsLast (ls : List Bytes) (n : Nat) : Prop :=
  ∃ before line after, ls = before ++ line :: after ∧ Announces line n ∧
    ∀ line' ∈ after, ¬NamesLength line'

variable {found r : Option Nat} {line : Bytes} {n k : Nat}
  {text name value name' value' : List Char}

theorem isField_encode : IsField (Utf8.encode text) name value ↔
    Text.cut [':'] text = some (name, value) := by
  rw [Text.cut_singleton, IsField]
  exact and_congr_right fun _ => ⟨Utf8.encode_inj, congrArg Utf8.encode⟩

theorem IsField.unique (h : IsField line name value) (h' : IsField line name' value') :
    name = name' ∧ value = value' := by
  have hc := isField_encode.1 (h.2 ▸ h)
  have hc' := isField_encode.1 (h.2 ▸ h')
  rw [hc] at hc'
  exact Prod.mk.inj (Option.some.inj hc')

theorem IsField.exists_iff {p : List Char → List Char → Prop} (h : IsField line name value) :
    (∃ name value, IsField line name value ∧ p name value) ↔ p name value := by
  refine ⟨?_, fun hp => ⟨name, value, h, hp⟩⟩
  rintro ⟨name', value', h', hp⟩
  obtain ⟨rfl, rfl⟩ := h.unique h'
  exact hp

theorem IsField.namesLength_iff (h : IsField line name value) :
    NamesLength line ↔ folded name = lengthName :=
  h.exists_iff

theorem IsField.other_iff (h : IsField line name value) :
    Other line ↔ folded name ≠ lengthName :=
  h.exists_iff

theorem IsField.announces_iff (h : IsField line name value) :
    Announces line n ↔ folded name = lengthName ∧ IsLength value n :=
  h.exists_iff

theorem length?_eq_some : length? (Text.trim text) = some n ↔ IsLength text n := by
  have hs : span 64 = 2 ^ 64 := rfl
  simp only [length?, Option.bind_eq_some_iff, unsigned?_eq_some, hs, IsLength]
  constructor
  · rintro ⟨m, ⟨ds, hds, hne, hd, hv⟩, hm⟩
    split at hm
    · next hlt =>
      cases hm
      exact ⟨ds, hds, hne, hd, hv, hlt⟩
    · cases hm
  · rintro ⟨ds, hds, hne, hd, hv, hlt⟩
    exact ⟨n, ⟨ds, hds, hne, hd, hv⟩, if_pos hlt⟩

theorem Announces.unique (h : Announces line n) (h' : Announces line k) : n = k := by
  obtain ⟨name, value, hf, hn, hl⟩ := h
  have hl' := (hf.announces_iff.1 h').2
  rw [← length?_eq_some] at hl hl'
  exact Option.some.inj (hl.symm.trans hl')

theorem Announces.namesLength (h : Announces line n) : NamesLength line := by
  obtain ⟨name, value, hf, hn, -⟩ := h
  exact ⟨name, value, hf, hn⟩

theorem Other.not_namesLength (h : Other line) : ¬NamesLength line := by
  obtain ⟨name, value, hf, hn⟩ := h
  exact mt hf.namesLength_iff.1 hn

theorem readLine_of_other (hc : Text.cut [':'] text = some (name, value))
    (hn : folded name ≠ lengthName) : readLine found text = .ok found := by
  rw [readLine, field?, hc]
  exact if_neg hn

theorem readLine_of_length (hc : Text.cut [':'] text = some (name, value))
    (hn : folded name = lengthName) :
    readLine found text = .ok r ↔ ∃ n, IsLength value n ∧ r = some n := by
  rw [folded] at hn
  simp only [readLine, field?, hc, Option.map_some, hn, if_true, ← length?_eq_some]
  cases length? (Text.trim value) <;> simp [eq_comm]

theorem readLine_eq_ok_iff : readLine found text = .ok r ↔
    Other (Utf8.encode text) ∧ r = found ∨ ∃ n, Announces (Utf8.encode text) n ∧ r = some n := by
  cases hc : Text.cut [':'] text with
  | none =>
      have hf : ∀ name value, ¬IsField (Utf8.encode text) name value := by
        intro name value h
        rw [isField_encode, hc] at h
        cases h
      simp [readLine, field?, hc, Other, Announces, hf]
  | some p =>
      obtain ⟨name, value⟩ := p
      have hf : IsField (Utf8.encode text) name value := isField_encode.2 hc
      simp only [hf.other_iff, hf.announces_iff]
      by_cases hn : folded name = lengthName
      · simp [readLine_of_length hc hn, hn]
      · simp [readLine_of_other hc hn, hn, eq_comm]

theorem foldlM_readLine_eq_ok_iff (ts : List (List Char)) :
    ts.foldlM readLine found = .ok r ↔ Heard found (ts.map Utf8.encode) r := by
  induction ts generalizing found with
  | nil =>
      constructor
      · intro h
        cases h
        exact .nil
      · intro h
        cases h
        rfl
  | cons t ts ih =>
      have hb : (t :: ts).foldlM readLine found = .ok r ↔
          ∃ m, readLine found t = .ok m ∧ ts.foldlM readLine m = .ok r := by
        rw [List.foldlM_cons]
        cases readLine found t <;> simp [bind, Except.bind]
      simp only [hb, readLine_eq_ok_iff, ih, List.map_cons]
      constructor
      · rintro ⟨m, ⟨ho, rfl⟩ | ⟨n, ha, rfl⟩, hr⟩
        · exact .other ho hr
        · exact .length ha hr
      · intro h
        cases h with
        | other ho hr => exact ⟨found, .inl ⟨ho, rfl⟩, hr⟩
        | length ha hr => exact ⟨_, .inr ⟨_, ha, rfl⟩, hr⟩

theorem lengthOfLines_eq_ok_iff (ts : List (List Char)) :
    lengthOfLines ts = .ok n ↔ Heard none (ts.map Utf8.encode) (some n) := by
  rw [← foldlM_readLine_eq_ok_iff, lengthOfLines]
  cases ts.foldlM readLine none with
  | error e => simp [bind, Except.bind]
  | ok r => cases r <;> simp [bind, Except.bind]

end Frame

end Parley
