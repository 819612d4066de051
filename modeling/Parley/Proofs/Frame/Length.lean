import Parley.Proofs.Frame.Line

namespace Parley

namespace Frame

open Settings (IsDigit value unsigned?_eq_some)

variable {found r : Option Nat} {line line' : Bytes} {ls ls' : List Bytes} {n k : Nat}
  {text name value value' : List Char}

theorem joined_singleton (line : Bytes) : joined [line] = line := List.intercalate_singleton

theorem joined_cons_cons (line line' : Bytes) (ls : List Bytes) :
    joined (line :: line' :: ls) = line ++ lineBreak ++ joined (line' :: ls) :=
  List.intercalate_cons_cons

theorem joined_encode (ts : List (List Char)) :
    joined (ts.map Utf8.encode) = Utf8.encode (['\r', '\n'].intercalate ts) :=
  (Utf8.encode_intercalate ['\r', '\n'] ts).symm

theorem heard_cons_other (h : Other line) : Heard found (line :: ls) r ↔ Heard found ls r := by
  refine ⟨fun hr => ?_, .other h⟩
  cases hr with
  | other _ hr => exact hr
  | length ha _ => exact absurd ha.namesLength h.not_namesLength

theorem heard_cons_announces (h : Announces line n) :
    Heard found (line :: ls) r ↔ Heard (some n) ls r := by
  refine ⟨fun hr => ?_, .length h⟩
  cases hr with
  | other ho _ => exact absurd h.namesLength ho.not_namesLength
  | length ha hr => exact ha.unique h ▸ hr

theorem not_isLast_nil : ¬IsLast [] n := by
  rintro ⟨before, line, after, he, -⟩
  simp at he

theorem isLast_cons : IsLast (line :: ls) n ↔
    Announces line n ∧ (∀ line' ∈ ls, ¬NamesLength line') ∨ IsLast ls n := by
  constructor
  · rintro ⟨_ | ⟨x, before⟩, line', after, he, ha, hn⟩
    · cases he
      exact .inl ⟨ha, hn⟩
    · cases he
      exact .inr ⟨before, line', after, rfl, ha, hn⟩
  · rintro (⟨ha, hn⟩ | ⟨before, line', after, rfl, ha, hn⟩)
    · exact ⟨[], line, ls, rfl, ha, hn⟩
    · exact ⟨line :: before, line', after, rfl, ha, hn⟩

/-- What is known after some lines is what the last line for the length says or, when none is for
it, what was known before. -/
theorem heard_iff : Heard found ls r ↔ (∀ line ∈ ls, Readable line) ∧
    ((∃ n, IsLast ls n ∧ r = some n) ∨ (∀ line ∈ ls, ¬NamesLength line) ∧ r = found) := by
  induction ls generalizing found with
  | nil =>
      constructor
      · intro h
        cases h
        exact ⟨nofun, .inr ⟨nofun, rfl⟩⟩
      · rintro ⟨-, ⟨n, hn, -⟩ | ⟨-, rfl⟩⟩
        · exact absurd hn not_isLast_nil
        · exact .nil
  | cons line ls ih =>
      by_cases ho : Other line
      · have ha : ∀ n, ¬Announces line n := fun n ha => ho.not_namesLength ha.namesLength
        rw [heard_cons_other ho, ih]
        simp [isLast_cons, Readable, ho, ha, ho.not_namesLength]
      · by_cases ha : ∃ k, Announces line k
        · obtain ⟨k, ha⟩ := ha
          have hn : ∀ n, Announces line n ↔ n = k := fun n =>
            ⟨fun h => h.unique ha, fun h => h ▸ ha⟩
          rw [heard_cons_announces ha, ih]
          simp [isLast_cons, Readable, ho, hn, ha.namesLength, or_and_right, exists_or, and_assoc,
            or_comm]
        · refine iff_of_false (fun h => ?_) fun h => ?_
          · cases h with
            | other h _ => exact ho h
            | length h _ => exact ha ⟨_, h⟩
          · exact (List.forall_mem_cons.1 h.1).1.elim ho ha

theorem Readable.isField (h : Readable line) : ∃ name value, IsField line name value := by
  rcases h with ⟨name, value, h, -⟩ | ⟨n, name, value, h, -⟩
  · exact ⟨name, value, h⟩
  · exact ⟨name, value, h⟩

theorem Readable.exists_text (h : Readable line) : ∃ text, line = Utf8.encode text := by
  obtain ⟨name, value, -, hl⟩ := h.isField
  exact ⟨_, hl⟩

theorem exists_map_encode (h : ∀ line ∈ ls, ∃ text, line = Utf8.encode text) :
    ∃ ts : List (List Char), ls = ts.map Utf8.encode := by
  induction ls with
  | nil => exact ⟨[], rfl⟩
  | cons line ls ih =>
      obtain ⟨⟨text, rfl⟩, hls⟩ := List.forall_mem_cons.1 h
      obtain ⟨ts, rfl⟩ := ih hls
      exact ⟨text :: ts, rfl⟩

theorem exists_texts (h : ∀ line ∈ ls, IsLine line) (ht : joined ls = Utf8.encode text) :
    ∃ ts : List (List Char), ls = ts.map Utf8.encode := by
  induction ls generalizing text with
  | nil => exact ⟨[], rfl⟩
  | cons line ls ih =>
      obtain ⟨hl, hls⟩ := List.forall_mem_cons.1 h
      cases ls with
      | nil => exact ⟨[text], congrArg (fun l => [l]) (joined_singleton line ▸ ht)⟩
      | cons line' ls =>
          have hc : Text.cut lineBreak (line ++ lineBreak ++ joined (line' :: ls)) =
              some (line, joined (line' :: ls)) := Text.cut_pair (by decide) hl _
          -- The first line break of the bytes is that of the text.
          have hb : lineBreak = Utf8.encode ['\r', '\n'] := rfl
          rw [← joined_cons_cons, ht, hb, Utf8.cut_encode (by decide)] at hc
          obtain ⟨⟨t, rest⟩, -, hp⟩ := Option.map_eq_some_iff.1 hc
          obtain ⟨rfl, hr⟩ := Prod.mk.inj hp
          obtain ⟨ts, hts⟩ := ih hls hr.symm
          exact ⟨t :: ts, congrArg (Utf8.encode t :: ·) hts⟩

theorem lines_intercalate {ts : List (List Char)} (hne : ts ≠ [])
    (h : ∀ line ∈ ts.map Utf8.encode, IsLine line) : lines (['\r', '\n'].intercalate ts) = ts := by
  refine Text.pieces_intercalate (by decide) hne fun t ht hi => ?_
  exact h _ (List.mem_map_of_mem ht) (Utf8.infix_encode hi)

theorem contentLength_encode_lines {ts : List (List Char)}
    (h : ∀ line ∈ ts.map Utf8.encode, IsLine line) :
    contentLength (joined (ts.map Utf8.encode)) = .ok n ↔
      Heard none (ts.map Utf8.encode) (some n) := by
  cases ts with
  | nil => exact iff_of_false nofun nofun
  | cons t ts =>
      rw [joined_encode, contentLength_encode, lines_intercalate (List.cons_ne_nil t ts) h,
        lengthOfLines_eq_ok_iff]

theorem contentLength_eq_ok_iff (h : ∀ line ∈ ls, IsLine line) :
    contentLength (joined ls) = .ok n ↔ Heard none ls (some n) := by
  constructor
  · intro hn
    obtain ⟨text, ht⟩ : ∃ text, joined ls = Utf8.encode text := by
      rw [contentLength] at hn
      split at hn
      · cases hn
      · next text ht => exact ⟨text, Utf8.decode?_eq_some_iff.1 ht⟩
    obtain ⟨ts, rfl⟩ := exists_texts h ht
    exact (contentLength_encode_lines h).1 hn
  · intro hn
    obtain ⟨ts, rfl⟩ := exists_map_encode fun line hl => ((heard_iff.1 hn).1 line hl).exists_text
    exact (contentLength_encode_lines h).2 hn

/-- Lines are readable where they make up a text, each has a colon and those for the length give
it. -/
theorem forall_readable_iff (h : ∀ line ∈ ls, IsLine line) : (∀ line ∈ ls, Readable line) ↔
    (∃ text, joined ls = Utf8.encode text) ∧ (∀ line ∈ ls, colon ∈ line) ∧
      ∀ line ∈ ls, NamesLength line → ∃ k, Announces line k := by
  have hcolon : ∀ text, colon ∈ Utf8.encode text ↔ ':' ∈ text := fun text =>
    Utf8.mem_encode (c := ':') (by decide)
  constructor
  · intro hr
    obtain ⟨ts, hts⟩ := exists_map_encode fun line hl => (hr line hl).exists_text
    refine ⟨⟨_, hts ▸ joined_encode ts⟩, fun line hl => ?_, fun line hl hn => ?_⟩
    · obtain ⟨name, value, -, rfl⟩ := (hr line hl).isField
      exact (hcolon _).2 (by simp)
    · exact (hr line hl).resolve_left fun ho => ho.not_namesLength hn
  · rintro ⟨⟨text, ht⟩, hc, hn⟩ line hl
    obtain ⟨ts, rfl⟩ := exists_texts h ht
    obtain ⟨t, -, rfl⟩ := List.mem_map.1 hl
    obtain ⟨name, value, rfl, hname⟩ := List.eq_append_cons_of_mem ((hcolon t).1 (hc _ hl))
    have hf : IsField (Utf8.encode (name ++ ':' :: value)) name value := ⟨hname, rfl⟩
    by_cases hl' : folded name = lengthName
    · exact .inr (hn _ hl (hf.namesLength_iff.2 hl'))
    · exact .inl (hf.other_iff.2 hl')

theorem IsLength.of_folded (h : IsLength value n) (hf : folded value' = folded value) :
    IsLength value' n := by
  obtain ⟨ds, hds, hne, hd, hv⟩ := h
  have hc : ∀ c ∈ Text.trim value, c.toNat < 65 := by
    have hd' : ∀ c ∈ ds, c.toNat < 65 := fun c hc => by
      have h9 : c.toNat ≤ '9'.toNat := (hd c hc).2
      exact Nat.lt_of_le_of_lt h9 (by decide)
    rcases hds with hds | hds
    · rwa [hds]
    · rw [hds]
      exact List.forall_mem_cons.2 ⟨by decide, hd'⟩
  rw [← Text.eq_of_lower hf hc] at hds
  exact ⟨ds, hds, hne, hd, hv⟩

theorem heard_append_mono (h : ∀ m, Heard m ls r → Heard m ls' r) (before : List Bytes)
    (hr : Heard found (before ++ ls) r) : Heard found (before ++ ls') r := by
  induction before generalizing found with
  | nil => exact h found hr
  | cons line before ih =>
      cases hr with
      | other ho hr => exact .other ho (ih hr)
      | length ha hr => exact .length ha (ih hr)

theorem heard_swap (h : Other line) :
    Heard found (line :: line' :: ls) r ↔ Heard found (line' :: line :: ls) r := by
  rw [heard_cons_other h]
  constructor
  · intro hr
    cases hr with
    | other ho hr => exact .other ho (.other h hr)
    | length ha hr => exact .length ha (.other h hr)
  · intro hr
    cases hr with
    | other ho hr => exact .other ho ((heard_cons_other h).1 hr)
    | length ha hr => exact .length ha ((heard_cons_other h).1 hr)

theorem Edit.heard (h : Edit ls ls') (hr : Heard found ls r) : Heard found ls' r := by
  cases h with
  | insert before after _ ho => exact heard_append_mono (fun m hm => .other ho hm) before hr
  | delete before after ho =>
      exact heard_append_mono (fun m hm => (heard_cons_other ho).1 hm) before hr
  | swap before after ho =>
      refine heard_append_mono (fun m hm => ?_) before hr
      rcases ho with ho | ho
      · exact (heard_swap ho).1 hm
      · exact (heard_swap ho).2 hm
  | rewrite before after ho _ ho' =>
      exact heard_append_mono (fun m hm => .other ho' ((heard_cons_other ho).1 hm)) before hr
  | respell before after _ hf hf' hn hv =>
      refine heard_append_mono (fun m hm => ?_) before hr
      cases hm with
      | other ho hm => exact .other (hf'.other_iff.2 (hn ▸ hf.other_iff.1 ho)) hm
      | length ha hm =>
          obtain ⟨hname, hl⟩ := hf.announces_iff.1 ha
          exact .length (hf'.announces_iff.2 ⟨hn.trans hname, hl.of_folded hv⟩) hm

theorem Edit.isLine (h : Edit ls ls') (hl : ∀ line ∈ ls, IsLine line) :
    ∀ line ∈ ls', IsLine line := by
  cases h <;> simp_all [or_imp, forall_and]

/-- The lengths of header blocks. A block has one where it is text, each line has a colon and those
for the length give it, and then it is what the last of them gives; no change to the other lines or
to the spelling of a line makes it another one. -/
theorem contentLength_joined (h : ∀ line ∈ ls, IsLine line) (n : Nat) :
    (contentLength (joined ls) = .ok n ↔
      (∃ text, joined ls = Utf8.encode text) ∧ (∀ line ∈ ls, colon ∈ line) ∧
      (∀ line ∈ ls, NamesLength line → ∃ k, Announces line k) ∧ IsLast ls n) ∧
    (contentLength (joined ls) = .ok n → ∀ ls', Relation.ReflTransGen Edit ls ls' →
      contentLength (joined ls') = .ok n) := by
  constructor
  · rw [contentLength_eq_ok_iff h, heard_iff, forall_readable_iff h]
    simp [and_assoc]
  · intro hn ls' he
    have hr : (∀ line ∈ ls', IsLine line) ∧ Heard none ls' (some n) := by
      induction he with
      | refl => exact ⟨h, (contentLength_eq_ok_iff h).1 hn⟩
      | tail _ he ih => exact ⟨he.isLine ih.1, he.heard ih.2⟩
    exact (contentLength_eq_ok_iff hr.1).2 hr.2

def spaced : List Bytes := ["content-type: x", "CONTENT-LENGTH : +03 "].map Bytes.ofString

def terse : List Bytes := ["Content-Length:+03"].map Bytes.ofString

/-- A line for something else is left out, and the one for the length is spelled in another way. -/
theorem contentLength_joined_of_spaced :
    ((∀ line ∈ spaced, IsLine line) ∧ contentLength (joined spaced) = .ok 3 ∧
      Relation.ReflTransGen Edit spaced terse) ∧
    IsLast spaced 3 ∧ contentLength (joined terse) = .ok 3 := by
  have hl : ∀ line ∈ spaced, IsLine line := by decide +kernel
  have hl' : ∀ line ∈ terse, IsLine line := by decide +kernel
  have ho : IsField (Bytes.ofString "content-type: x") "content-type".toList " x".toList :=
    ⟨by decide, by decide +kernel⟩
  have hf : IsField (Bytes.ofString "CONTENT-LENGTH : +03 ") "CONTENT-LENGTH ".toList
      " +03 ".toList := ⟨by decide, by decide +kernel⟩
  have hf' : IsField (Bytes.ofString "Content-Length:+03") "Content-Length".toList "+03".toList :=
    ⟨by decide, by decide +kernel⟩
  have he : Relation.ReflTransGen Edit spaced terse :=
    .tail (.single (.delete [] _ (ho.other_iff.2 (by decide))))
      (.respell [] [] (hl' _ List.mem_cons_self) hf hf' (by decide) (by decide))
  have hn : contentLength (joined spaced) = .ok 3 := by rfl
  have hc := contentLength_joined hl 3
  exact ⟨⟨hl, hn, he⟩, (hc.1.1 hn).2.2.2, hc.2 hn terse he⟩

end Frame

end Parley
