import Parley.Frame.Header
import Parley.Proofs.Decimal.Natural
import Parley.Proofs.Text.Split
import Parley.Proofs.Text.Utf8

namespace Parley

namespace Text

variable {cs : List Char}

theorem trimLeft_of_not_blank (h : ∀ c ∈ cs, isBlank c = false) : trimLeft cs = cs := by
  cases cs with
  | nil => rfl
  | cons c cs => simp [trimLeft, h c List.mem_cons_self]

theorem trimRight_of_not_blank (h : ∀ c ∈ cs, isBlank c = false) : trimRight cs = cs := by
  have hr : trimLeft cs.reverse = cs.reverse :=
    trimLeft_of_not_blank fun c hc => h c (List.mem_reverse.1 hc)
  rw [trimLeft] at hr
  rw [trimRight, hr, List.reverse_reverse]

theorem isBlank_of_digit {c : Char} (h : 48 ≤ c.toNat ∧ c.toNat ≤ 57) : isBlank c = false := by
  simp [isBlank]
  omega

end Text

namespace Frame

open Text

def writtenName : List Char := "Content-Length".toList

/-- The header block for a body of `n` bytes, without its terminator. -/
def block (n : Nat) : List Char := writtenName ++ [':'] ++ ' ' :: Decimal.digits n

theorem header_eq (n : Nat) : (header n).toList = block n ++ "\r\n\r\n".toList := by
  have ha : ∀ r s t : String, (r ++ s ++ t).toList = r.toList ++ s.toList ++ t.toList := by
    intro r s t
    rw [String.toList_append, String.toList_append]
  have hd : (Decimal.ofNat n).toList = Decimal.digits n := String.toList_ofList
  have hw : "Content-Length: ".toList = writtenName ++ [':', ' '] := by decide
  have hs : ∀ p ds t : List Char, p ++ [':', ' '] ++ ds ++ t = p ++ [':'] ++ ' ' :: ds ++ t := by
    simp
  calc (header n).toList
      = "Content-Length: ".toList ++ (Decimal.ofNat n).toList ++ "\r\n\r\n".toList := ha _ _ _
    _ = writtenName ++ [':', ' '] ++ Decimal.digits n ++ "\r\n\r\n".toList := by rw [hw, hd]
    _ = block n ++ "\r\n\r\n".toList := hs _ _ _

theorem mem_block {n : Nat} {c : Char} (h : c ∈ block n) : 32 ≤ c.toNat ∧ c.toNat < 0x80 := by
  have hw : (writtenName ++ [':']).all fun c => 32 ≤ c.toNat && c.toNat < 0x80 := by decide
  rcases List.mem_append.1 h with h | h
  · have := List.all_eq_true.1 hw c h
    simpa using this
  · rcases List.mem_cons.1 h with rfl | h
    · decide
    · have := Decimal.mem_digits h
      omega

theorem header_bytes (n : Nat) :
    Bytes.ofString (header n) = Utf8.encode (block n) ++ terminator := by
  have ht : Utf8.encode "\r\n\r\n".toList = terminator := rfl
  rw [Bytes.ofString, header_eq, Utf8.encode_append, ht]

theorem not_mem_block (n : Nat) : (13 : UInt8) ∉ Utf8.encode (block n) := by
  rw [Utf8.encode_ascii fun c hc => (mem_block hc).2]
  intro h
  obtain ⟨c, hc, he⟩ := List.mem_map.1 h
  have hb := mem_block hc
  have hv := Utf8.toNat_ofNat (n := c.toNat) (by omega)
  rw [he] at hv
  have : (13 : UInt8).toNat = 13 := rfl
  omega

theorem length_block {n : Nat} (h : n < span 64) : (Utf8.encode (block n)).length ≤ 36 := by
  have hw : writtenName.length = 14 := by decide
  have hs : span 64 ≤ 10 ^ 20 := by decide
  have hd : (Decimal.digits n).length ≤ 20 :=
    Decimal.length_digits (by decide) (Nat.lt_of_lt_of_le h hs)
  rw [Utf8.encode_ascii fun c hc => (mem_block hc).2, List.length_map]
  simp only [block, List.length_append, List.length_cons, List.length_nil]
  omega

theorem field?_block (n : Nat) : field? (block n) = some (writtenName, Decimal.digits n) := by
  have hc : cut [':'] (block n) = some (writtenName, ' ' :: Decimal.digits n) :=
    cut_append (by decide)
  have hw : trim writtenName = writtenName := by decide
  have hb : ∀ c ∈ Decimal.digits n, isBlank c = false := fun c h =>
    isBlank_of_digit (Decimal.mem_digits h)
  have hd : trim (' ' :: Decimal.digits n) = Decimal.digits n := by
    have hl : trimLeft (' ' :: Decimal.digits n) = trimLeft (Decimal.digits n) := rfl
    rw [trim, hl, trimLeft_of_not_blank hb, trimRight_of_not_blank hb]
  simp only [field?, hc, Option.map_some, hw, hd]

theorem contentLength_encode (text : List Char) :
    contentLength (Utf8.encode text) = lengthOfLines (lines text) := by
  rw [contentLength, Utf8.decode?_encode]

theorem contentLength_block {n : Nat} (h : n < span 64) :
    contentLength (Utf8.encode (block n)) = .ok n := by
  have hl : lines (block n) = [block n] := by
    apply pieces_of_not_mem
    intro hm
    have := mem_block hm
    simp at this
  have hv : length? (Decimal.digits n) = some n := by
    rw [length?, Decimal.unsigned?_digits, Option.bind_some, if_pos h]
  have hr : readLine none (block n) = .ok (some n) := by
    have hn : lower writtenName = lengthName := by decide
    simp only [readLine, field?_block, hn, if_true, hv]
  rw [contentLength_encode, hl]
  simp only [lengthOfLines, List.foldlM_cons, List.foldlM_nil, hr]
  rfl

end Frame

end Parley
