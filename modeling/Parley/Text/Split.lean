namespace Parley.Text

def isBlank (c : Char) : Bool :=
  let n := c.toNat
  (0x09 ≤ n && n ≤ 0x0D) || n = 0x20 || n = 0x85 || n = 0xA0 || n = 0x1680
    || (0x2000 ≤ n && n ≤ 0x200A) || n = 0x2028 || n = 0x2029 || n = 0x202F || n = 0x205F
    || n = 0x3000

def trimLeft (cs : List Char) : List Char := cs.dropWhile isBlank

def trimRight (cs : List Char) : List Char := (cs.reverse.dropWhile isBlank).reverse

def trim (cs : List Char) : List Char := trimRight (trimLeft cs)

/-- ASCII capitals made small; all else stays. -/
def lower (cs : List Char) : List Char := cs.map Char.toLower

end Parley.Text

namespace Parley.Text

variable {α : Type} [DecidableEq α]

def cut (sep : List α) : List α → Option (List α × List α)
  | [] => if sep.isEmpty then some ([], []) else none
  | a :: as =>
    if sep.isPrefixOf (a :: as) then some ([], (a :: as).drop sep.length)
    else (cut sep as).map fun (before, after) => (a :: before, after)

theorem length_cut {sep l before after : List α} (h : cut sep l = some (before, after)) :
    l.length = before.length + sep.length + after.length := by
  induction l generalizing before after with
  | nil =>
    cases sep with
    | nil => simp_all [cut]
    | cons => simp [cut] at h
  | cons a as ih =>
    rw [cut] at h
    split at h
    · next hp =>
      obtain ⟨rfl, rfl⟩ := Prod.mk.injEq .. ▸ Option.some.inj h
      have := (List.isPrefixOf_iff_prefix.1 hp).length_le
      simp only [List.length_drop, List.length_nil]
      omega
    · obtain ⟨⟨b, r⟩, hc, he⟩ := Option.map_eq_some_iff.1 h
      obtain ⟨rfl, rfl⟩ := Prod.mk.injEq .. ▸ he
      simp [ih hc]
      omega

/-- The pieces between the occurrences of the pair `a`, `b`, at least one. -/
def pieces (a b : α) : List α → List (List α)
  | [] => [[]]
  | [x] => [[x]]
  | x :: y :: rest =>
    if x = a ∧ y = b then [] :: pieces a b rest
    else
      match pieces a b (y :: rest) with
      | p :: ps => (x :: p) :: ps
      | [] => [[x]]

end Parley.Text
