import Parley.Proofs.Frame.Chunk

namespace Parley.Frame

/-- A frame as it stands in a stream: a header block, ended by the first terminator there is, and a
body of the length that the block announces. -/
structure Framed where
  block : Bytes
  body : Bytes
  first : ∀ x y, block ++ terminator = x ++ terminator ++ y → y = []
  announced : contentLength block = .ok body.length

namespace Framed

def head (f : Framed) : Bytes := f.block ++ terminator

def bytes (f : Framed) : Bytes := f.head ++ f.body

structure Fits (f : Framed) (limits : Limits) : Prop where
  header : f.head.length ≤ limits.header
  frame : f.body.length ≤ limits.frame

variable {f : Framed} {limits : Limits} {rest part : Bytes}

def ofBody (body : Bytes) (h : body.length < span 64) : Framed where
  block := Utf8.encode (Frame.block body.length)
  body := body
  first :=
    have hc : Text.cut terminator (Utf8.encode (Frame.block body.length) ++ terminator ++ []) =
      some (Utf8.encode (Frame.block body.length), []) := Text.cut_append (not_mem_block _)
    (Text.cut_eq_some_iff.1 hc).2
  announced := contentLength_block h

theorem bytes_ofBody {body : Bytes} (h : body.length < span 64) :
    (ofBody body h).bytes = encode body :=
  (encode_eq body).symm

theorem head_ofBody {body : Bytes} (h : body.length < span 64) :
    (ofBody body h).head = Bytes.ofString (header body.length) :=
  (header_bytes body.length).symm

theorem cut_head (f : Framed) (rest : Bytes) :
    Text.cut terminator (f.head ++ rest) = some (f.block, rest) :=
  Text.cut_eq_some_iff.2 ⟨rfl, f.first⟩

theorem cut_part (h : part <+: f.head) (hp : part ≠ f.head) : Text.cut terminator part = none := by
  obtain ⟨x, hx⟩ := h
  refine Text.cut_eq_none_iff.2 ?_
  rintro ⟨before, after, rfl⟩
  have hy := f.first before (after ++ x) (by rw [← List.append_assoc]; exact hx.symm)
  obtain ⟨rfl, rfl⟩ := List.append_eq_nil_iff.1 hy
  exact hp (by rwa [List.append_nil] at hx)

/-- A header block begins a frame, of which the body has come in, or a part of it. -/
theorem exists_of_block {block : Bytes} {n : Nat}
    (hfirst : ∀ x y, block ++ terminator = x ++ terminator ++ y → y = [])
    (hn : contentLength block = .ok n) (rest : Bytes) :
    ∃ f : Framed, f.block = block ∧ (rest.length < f.body.length ∨ ∃ t, rest = f.body ++ t) := by
  by_cases hr : rest.length < n
  · -- Any bytes may stand for those that are missing.
    have hl : (List.replicate n (0 : UInt8)).length = n := List.length_replicate
    exact ⟨⟨block, List.replicate n 0, hfirst, hn.trans (congrArg Except.ok hl.symm)⟩, rfl,
      .inl (Nat.lt_of_lt_of_eq hr hl.symm)⟩
  · have hl : (rest.take n).length = n := List.length_take_of_le (Nat.le_of_not_lt hr)
    exact ⟨⟨block, rest.take n, hfirst, hn.trans (congrArg Except.ok hl.symm)⟩, rfl,
      .inr ⟨rest.drop n, (List.take_append_drop n rest).symm⟩⟩

theorem head_ne_nil (f : Framed) : f.head ≠ [] := by
  simp [head, terminator]

theorem head_ne_frames (hb : f.body ≠ []) (frames : List Framed) :
    f.head ≠ frames.flatMap bytes := by
  intro h
  cases frames with
  | nil => exact f.head_ne_nil h
  | cons g frames =>
      -- The first of the frames would have the same header block, and no body.
      have hf := f.cut_head []
      rw [List.append_nil, h, List.flatMap_cons, bytes, List.append_assoc, g.cut_head] at hf
      obtain ⟨hblock, hrest⟩ := Prod.mk.inj (Option.some.inj hf)
      have hg : g.body = [] := (List.append_eq_nil_iff.1 hrest).1
      have hn := g.announced.symm.trans (hblock ▸ f.announced)
      rw [hg] at hn
      exact hb (List.eq_nil_of_length_eq_zero (Except.ok.inj hn).symm)

theorem part_cases (h : part <+: f.bytes) :
    part <+: f.head ∨ ∃ x, part = f.head ++ x ∧ x <+: f.body := by
  obtain ⟨t, ht⟩ := h
  rcases List.append_eq_append_iff.1 ht with ⟨x, hx, -⟩ | ⟨x, hx, hb⟩
  · exact .inl ⟨x, hx.symm⟩
  · exact .inr ⟨x, hx, t, hb.symm⟩

end Framed

namespace Decoder

variable {d d' : Decoder} {limits : Limits} {b x rest : Bytes} {e : Error} {f g : Framed}
  {frames : List Framed} {bodies : List Bytes}

def readAll (d : Decoder) (chunks : List Bytes) : List Bytes × Option Error :=
  match d.receive chunks with
  | (bodies, none, d) => (bodies ++ d.finish.1, d.finish.2.1)
  | (bodies, some e, _) => (bodies, some e)

theorem readAll_nil (d : Decoder) : d.readAll [] =
    match d.drain with
    | (bodies, none, d') => (bodies, if d'.buffer.isEmpty then none else some .truncated)
    | (bodies, some e, _) => (bodies, some e) := by
  simp only [readAll, receive, finish]
  rcases d.drain with ⟨bodies, error, d'⟩
  cases error <;> rfl

theorem readAll_cons (d : Decoder) (chunk : Bytes) (chunks : List Bytes) :
    d.readAll (chunk :: chunks) =
      match (d.feed chunk).drain with
      | (bodies, none, d') => (bodies ++ (d'.readAll chunks).1, (d'.readAll chunks).2)
      | (bodies, some e, _) => (bodies, some e) := by
  rw [readAll, receive]
  rcases (d.feed chunk).drain with ⟨bodies, error, d'⟩
  cases error with
  | some e => rfl
  | none =>
      simp only [readAll]
      rcases d'.receive chunks with ⟨more, error, d''⟩
      cases error <;> simp

theorem readAll_flatten (d : Decoder) (chunks : List Bytes) :
    d.readAll chunks = (d.feed chunks.flatten).readAll [] := by
  induction chunks generalizing d with
  | nil => rw [List.flatten_nil, feed_nil]
  | cons chunk chunks ih =>
      rw [List.flatten_cons, ← feed_feed, readAll_nil, drain_feed, readAll_cons]
      rcases (d.feed chunk).drain with ⟨bodies, error, d'⟩
      cases error with
      | some e => rfl
      | none =>
          simp only [ih d', readAll_nil]
          rcases (d'.feed chunks.flatten).drain with ⟨more, error, d''⟩
          cases error <;> rfl

theorem readAll_of_pending (h : d.next = (d', .ok none)) :
    d.readAll [] = ([], if d'.buffer = [] then none else some .truncated) := by
  simp only [readAll_nil, drain_of_pending h, List.isEmpty_iff]

theorem readAll_of_error (h : d.next = (d', .error e)) : d.readAll [] = ([], some e) := by
  rw [readAll_nil, drain_of_error h]

def holding (limits : Limits) (bytes : Bytes) : Decoder := { limits, buffer := bytes }

theorem next_of_head (h : f.Fits limits) (rest : Bytes) :
    (holding limits (f.head ++ rest)).next = (holding limits rest).takeBody f.body.length := by
  have hl := h.header
  rw [Framed.head, List.length_append] at hl
  rw [next_of_block rfl (f.cut_head rest), f.announced]
  exact (if_neg (Nat.not_lt.2 hl)).trans (if_neg (Nat.not_lt.2 h.frame))

theorem next_of_unfit (h : ¬f.Fits limits) (rest : Bytes) :
    ∃ e, (holding limits (f.head ++ rest)).next = (holding limits (f.head ++ rest), .error e) := by
  rw [next_of_block rfl (f.cut_head rest), f.announced]
  by_cases hl : limits.header < f.block.length + terminator.length
  · exact ⟨_, if_pos hl⟩
  · have hf : limits.frame < f.body.length := by
      refine Nat.lt_of_not_le fun hf => h ⟨?_, hf⟩
      rw [Framed.head, List.length_append]
      exact Nat.le_of_not_lt hl
    exact ⟨_, (if_neg hl).trans (if_pos hf)⟩

theorem takeBody_whole : (holding limits (b ++ rest)).takeBody b.length =
    (holding limits rest, .ok (some b)) := by
  simp [takeBody, holding]

theorem takeBody_part {n : Nat} (h : x.length < n) : (holding limits x).takeBody n =
    ({ limits, mode := .body n, buffer := x }, .ok none) := by
  simp only [takeBody, holding, List.length_take]
  rw [if_pos (by omega)]

theorem drain_bytes (h : f.Fits limits) (rest : Bytes) :
    (holding limits (f.bytes ++ rest)).drain =
      (f.body :: (holding limits rest).drain.1, (holding limits rest).drain.2) := by
  refine drain_of_frame ?_
  rw [Framed.bytes, List.append_assoc, next_of_head h, takeBody_whole]

theorem drain_frames {frames : List Framed} (h : ∀ f ∈ frames, f.Fits limits) (rest : Bytes) :
    (holding limits (frames.flatMap Framed.bytes ++ rest)).drain =
      (frames.map Framed.body ++ (holding limits rest).drain.1, (holding limits rest).drain.2) := by
  induction frames with
  | nil => rfl
  | cons f frames ih =>
      obtain ⟨hf, h⟩ := List.forall_mem_cons.1 h
      rw [List.flatMap_cons, List.append_assoc, drain_bytes hf, ih h]
      rfl

theorem readAll_frames (h : ∀ f ∈ frames, f.Fits limits) (rest : Bytes) :
    (holding limits (frames.flatMap Framed.bytes ++ rest)).readAll [] =
      (frames.map Framed.body ++ ((holding limits rest).readAll []).1,
        ((holding limits rest).readAll []).2) := by
  rw [readAll_nil, readAll_nil, drain_frames h]
  rcases (holding limits rest).drain with ⟨bodies, error, d⟩
  cases error <;> rfl

theorem readAll_frames_ne_none (frames : List Framed)
    (h : ((holding limits rest).readAll []).2 ≠ none) :
    ((holding limits (frames.flatMap Framed.bytes ++ rest)).readAll []).2 ≠ none := by
  induction frames with
  | nil => exact h
  | cons f frames ih =>
      rw [List.flatMap_cons, List.append_assoc]
      by_cases hf : f.Fits limits
      · have hr := readAll_frames (List.forall_mem_singleton.2 hf)
          (frames.flatMap Framed.bytes ++ rest)
        rw [List.flatMap_singleton] at hr
        rw [hr]
        exact ih
      · -- A frame that exceeds a limit is an error by itself.
        obtain ⟨e, he⟩ := next_of_unfit hf (f.body ++ (frames.flatMap Framed.bytes ++ rest))
        rw [← List.append_assoc] at he
        rw [Framed.bytes, readAll_of_error he]
        nofun

inductive Front (limits : Limits) : Bytes → Prop
  | frame (f : Framed) (rest : Bytes) : f.Fits limits → Front limits (f.bytes ++ rest)
  | head (f : Framed) (part : Bytes) : f.Fits limits → part.length < f.body.length →
      Front limits (f.head ++ part)
  | block (part : Bytes) : (holding limits part).next = (holding limits part, .ok none) →
      Front limits part
  | error (x : Bytes) (e : Error) : (holding limits x).next = (holding limits x, .error e) →
      Front limits x

theorem front (limits : Limits) (x : Bytes) : Front limits x := by
  cases hc : Text.cut terminator x with
  | none =>
      have hn := next_of_no_block (d := holding limits x) rfl hc
      split at hn
      · exact .error x _ hn
      · exact .block x hn
  | some p =>
      obtain ⟨block, rest⟩ := p
      obtain ⟨rfl, hfirst⟩ := Text.cut_eq_some_iff.1 hc
      cases hn : contentLength block with
      | error e =>
          have hx := next_of_block (d := holding limits (block ++ terminator ++ rest)) rfl hc
          rw [hn] at hx
          split at hx
          · exact .error _ _ hx
          · exact .error _ _ hx
      | ok n =>
          obtain ⟨f, rfl, hr⟩ := Framed.exists_of_block hfirst hn rest
          by_cases hf : f.Fits limits
          · rcases hr with hr | ⟨t, rfl⟩
            · exact .head f rest hf hr
            · rw [← List.append_assoc]
              exact .frame f t hf
          · obtain ⟨e, he⟩ := next_of_unfit hf rest
            exact .error _ e he

inductive Unnoticed (limits : Limits) : Bytes → Prop
  | nothing : Unnoticed limits []
  | head (g : Framed) : g.Fits limits → g.body ≠ [] → Unnoticed limits g.head

theorem readAll_block (h : (holding limits x).next = (holding limits x, .ok none)) :
    (holding limits x).readAll [] = ([], if x = [] then none else some .truncated) :=
  readAll_of_pending h

theorem readAll_head (h : f.Fits limits) (hx : x.length < f.body.length) :
    (holding limits (f.head ++ x)).readAll [] = ([], if x = [] then none else some .truncated) :=
  readAll_of_pending ((next_of_head h x).trans (takeBody_part hx))

theorem Unnoticed.readAll (h : Unnoticed limits rest) :
    (holding limits rest).readAll [] = ([], none) := by
  cases h with
  | nothing => exact readAll_block rfl
  | head g hg hb =>
      have hr := readAll_head (x := []) hg (List.length_pos_iff.2 hb)
      rwa [List.append_nil] at hr

inductive Left (limits : Limits) : Bytes → Decoder → Prop
  | block (part : Bytes) : Left limits part (holding limits part)
  | head (f : Framed) (part : Bytes) : f.Fits limits → part.length < f.body.length →
      Left limits (f.head ++ part) { limits, mode := .body f.body.length, buffer := part }

theorem exists_frames (h : (holding limits x).drain = (bodies, none, d)) :
    ∃ frames : List Framed, ∃ rest, x = frames.flatMap Framed.bytes ++ rest ∧
      frames.map Framed.body = bodies ∧ (∀ f ∈ frames, f.Fits limits) ∧ Left limits rest d := by
  -- Every frame that is taken leaves fewer bytes behind it.
  induction hn : x.length using Nat.strongRecOn generalizing x bodies with
  | ind n ih =>
      cases front limits x with
      | error _ e he => rw [drain_of_error he] at h; cases h
      | block _ hp =>
          rw [drain_of_pending hp] at h
          cases h
          exact ⟨[], x, rfl, rfl, nofun, .block x⟩
      | head f part hf hl =>
          rw [drain_of_pending ((next_of_head hf part).trans (takeBody_part hl))] at h
          cases h
          exact ⟨[], f.head ++ part, rfl, rfl, nofun, .head f part hf hl⟩
      | frame f rest hf =>
          rw [drain_bytes hf] at h
          obtain ⟨rfl, hr⟩ := Prod.mk.inj h
          have hlen : rest.length < n := by
            have := List.length_pos_iff.2 f.head_ne_nil
            simp only [Framed.bytes, List.length_append] at hn
            omega
          obtain ⟨frames, left, rfl, hb, hfits, hu⟩ := ih _ hlen (Prod.ext rfl hr) rfl
          refine ⟨f :: frames, left, ?_, ?_, List.forall_mem_cons.2 ⟨hf, hfits⟩, hu⟩
          · rw [List.flatMap_cons, List.append_assoc]
          · rw [List.map_cons, hb]

theorem Left.unnoticed (h : Left limits rest d) (hd : d.buffer = []) : Unnoticed limits rest := by
  cases h with
  | block =>
      obtain rfl : rest = [] := hd
      exact .nothing
  | head f part hf hl =>
      obtain rfl : part = [] := hd
      rw [List.append_nil]
      exact .head f hf (List.length_pos_iff.1 hl)

theorem drain_eq_fresh_iff : (holding limits x).drain = (bodies, none, { limits }) ↔
    ∃ frames : List Framed, x = frames.flatMap Framed.bytes ∧ frames.map Framed.body = bodies ∧
      ∀ f ∈ frames, f.Fits limits := by
  constructor
  · intro h
    obtain ⟨frames, rest, rfl, hb, hfits, hl⟩ := exists_frames h
    generalize hd : ({ limits } : Decoder) = d at hl
    cases hl with
    | block =>
        obtain rfl : [] = rest := congrArg Decoder.buffer hd
        exact ⟨frames, List.append_nil _, hb, hfits⟩
    | head => cases hd
  · rintro ⟨frames, rfl, rfl, hfits⟩
    have hd := drain_frames hfits []
    have h0 : (holding limits []).drain = ([], none, { limits }) := drain_fresh limits
    rwa [List.append_nil, h0, List.append_nil] at hd

theorem readAll_part (limits : Limits) {part : Bytes} (hp : part <+: g.bytes) (h0 : part ≠ [])
    (hh : part ≠ g.head) (hb : part ≠ g.bytes) :
    ((holding limits part).readAll []).2 ≠ none ∧
      (g.Fits limits → (holding limits part).readAll [] = ([], some .truncated)) := by
  -- The part breaks off in the header block or in the body.
  rcases Framed.part_cases hp with hp | ⟨x, rfl, hx⟩
  · have hn := next_of_no_block (d := holding limits part) rfl (Framed.cut_part hp hh)
    split at hn
    · next hl =>
      refine ⟨by rw [readAll_of_error hn]; nofun, fun hg => ?_⟩
      exact absurd (Nat.le_trans hp.length_le hg.header) (Nat.not_le.2 hl)
    · have hr := readAll_block hn
      rw [if_neg h0] at hr
      exact ⟨by rw [hr]; nofun, fun _ => hr⟩
  · have hl : x.length < g.body.length := by
      refine Nat.lt_of_le_of_ne hx.length_le fun he => hb ?_
      rw [Framed.bytes, hx.eq_of_length he]
    have hx0 : x ≠ [] := fun e => hh (by rw [e, List.append_nil])
    by_cases hg : g.Fits limits
    · have hr := readAll_head hg hl
      rw [if_neg hx0] at hr
      exact ⟨by rw [hr]; nofun, fun _ => hr⟩
    · obtain ⟨e, he⟩ := next_of_unfit hg x
      exact ⟨by rw [readAll_of_error he]; nofun, fun hg' => absurd hg' hg⟩

/-- A stream ends without an error where it consists of whole frames, and also where it breaks off
between a header block and the body that this announces. Any other part of a frame is noticed. -/
theorem readAll_ended (limits : Limits) (chunks : List Bytes) :
    (∀ bodies, readAll { limits } chunks = (bodies, none) ↔
      ∃ frames : List Framed, ∃ rest, chunks.flatten = frames.flatMap Framed.bytes ++ rest ∧
        frames.map Framed.body = bodies ∧ (∀ f ∈ frames, f.Fits limits) ∧
        Unnoticed limits rest) ∧
    ∀ (frames : List Framed) (g : Framed) (part : Bytes), part <+: g.bytes →
      part ≠ [] → part ≠ g.head → part ≠ g.bytes →
      chunks.flatten = frames.flatMap Framed.bytes ++ part →
      (readAll { limits } chunks).2 ≠ none ∧
      ((∀ f ∈ g :: frames, f.Fits limits) →
        readAll { limits } chunks = (frames.map Framed.body, some .truncated)) := by
  have hr : readAll { limits } chunks = (holding limits chunks.flatten).readAll [] :=
    readAll_flatten { limits } chunks
  rw [hr]
  refine ⟨fun bodies => ⟨fun h => ?_, ?_⟩, fun frames g part hp h0 hh hb hx => ?_⟩
  · rw [readAll_nil] at h
    rcases hd : (holding limits chunks.flatten).drain with ⟨bodies', error, d⟩
    rw [hd] at h
    cases error with
    | some e => cases h
    | none =>
        obtain ⟨rfl, he⟩ := Prod.mk.inj h
        obtain ⟨frames, rest, hx, hb, hfits, hl⟩ := exists_frames hd
        exact ⟨frames, rest, hx, hb, hfits, hl.unnoticed (by simpa using he)⟩
  · rintro ⟨frames, rest, hx, rfl, hfits, hu⟩
    rw [hx, readAll_frames hfits, hu.readAll, List.append_nil]
  · obtain ⟨he, ht⟩ := readAll_part limits hp h0 hh hb
    rw [hx]
    refine ⟨readAll_frames_ne_none frames he, fun hfits => ?_⟩
    obtain ⟨hg, hfits⟩ := List.forall_mem_cons.1 hfits
    rw [readAll_frames hfits, ht hg, List.append_nil]

theorem readAll_ended_of_cut :
    readAll {} [encode [104, 105] ++ Bytes.ofString (header 3), [97, 98]] =
      ([[104, 105]], some .truncated) := by
  let g := Framed.ofBody [97, 98, 99] (by decide)
  have hpart : Bytes.ofString (header 3) ++ [97, 98] <+: g.bytes :=
    ⟨[99], by rw [Framed.bytes_ofBody]; decide +kernel⟩
  have hcut : Bytes.ofString (header 3) ++ [97, 98] ≠ g.bytes := by
    rw [Framed.bytes_ofBody]
    decide +kernel
  have hhead : Bytes.ofString (header 3) ++ [97, 98] ≠ g.head := by
    rw [Framed.head_ofBody]
    decide +kernel
  have hstream : [encode [104, 105] ++ Bytes.ofString (header 3), [97, 98]].flatten =
      [Framed.ofBody [104, 105] (by decide)].flatMap Framed.bytes ++
        (Bytes.ofString (header 3) ++ [97, 98]) := by
    rw [List.flatMap_singleton, Framed.bytes_ofBody]
    decide +kernel
  refine ((readAll_ended {} _).2 _ g _ hpart (by decide +kernel) hhead hcut hstream).2 ?_
  refine List.forall_mem_cons.2 ⟨⟨?_, by decide⟩, List.forall_mem_singleton.2 ⟨?_, by decide⟩⟩
  · rw [Framed.head_ofBody]
    decide +kernel
  · rw [Framed.head_ofBody]
    decide +kernel

/-- A stream that breaks off right behind a header block ends as if nothing were missing. -/
theorem ended_before_body :
    readAll {} [Bytes.ofString (header 5)] = ([], none) ∧
      ∀ frames : List Framed, Bytes.ofString (header 5) ≠ frames.flatMap Framed.bytes := by
  let f := Framed.ofBody [104, 101, 108, 108, 111] (by decide)
  have hf : f.head = Bytes.ofString (header 5) := Framed.head_ofBody (by decide)
  have hfits : f.Fits {} := ⟨by rw [hf]; decide +kernel, by decide⟩
  rw [← hf]
  refine ⟨?_, Framed.head_ne_frames (List.cons_ne_nil _ _)⟩
  rw [readAll_flatten, List.flatten_singleton]
  exact (Unnoticed.head f hfits (List.cons_ne_nil _ _)).readAll

end Decoder

end Parley.Frame
