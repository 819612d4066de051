import Parley.Proofs.Network.Cable
import Parley.Proofs.Dispatch.Hearing
import Parley.Proofs.Frame.RoundTrip
import Parley.Proofs.Message.RoundTrip

namespace Parley

theorem Peer.step_taken {κ : Type} [DecidableEq κ] {p p' : Peer κ} {who : κ} {now : Nat}
    {x : Exchange} {r : Progress} (h : p.step who now x = (p', r)) :
    p'.outbound.taken = p.outbound.taken := by
  cases step_course h with
  | inLine ho | lined ho | sent ho | unsent ho | queued ho | refused ho =>
      exact (Flow.Channel.offered ho).2.1
  | unencodable | encoded | unregistered | registered | answered | gone | timedOut | waiting
  | left => rfl

namespace Dispatch

open Parley.Frame (Limits)
open Parley.Frame.Decoder (Awaits Admits Found)

namespace Inbound

variable {i j : Inbound} {limits : Limits} {bodies : List Bytes} {o : Option Arrival}

structure Holds (i : Inbound) (limits : Limits) (bodies : List Bytes) : Prop where
  limits : i.decoder.limits = limits
  awaits : Awaits i.decoder i.stream bodies

theorem Holds.feed (h : i.Holds limits bodies) : i.feed.Holds limits bodies := by
  unfold Inbound.feed
  split
  · exact h
  · refine ⟨h.limits, .feed ?_⟩
    rw [List.take_append_drop]
    exact h.awaits

inductive Gives (limits : Limits) : List Bytes → Inbound → Option Arrival → Prop
  | more {j : Inbound} {bodies : List Bytes} (h : j.Holds limits bodies) : Gives limits bodies j none
  | frame {j : Inbound} {b : Bytes} {bodies : List Bytes} (h : j.Holds limits bodies) :
      Gives limits (b :: bodies) j (some (.frame b))
  | stopped {j : Inbound} {a : Arrival} {bodies : List Bytes} (h : ∀ b, a ≠ .frame b) :
      Gives limits bodies j (some a)

theorem Holds.next? (ha : bodies ≠ [] → Admits limits bodies) (h : i.Holds limits bodies)
    (hn : i.next? = some (j, o)) : Gives limits bodies j o := by
  obtain rfl := h.limits
  simp only [Inbound.next?] at hn
  split at hn
  · split at hn
    · cases hn
      exact .more ⟨rfl, h.awaits⟩
    · split at hn
      · cases hn
      · split at hn <;> cases hn <;> exact .stopped (by simp)
  · split at hn
    · cases hn
      exact .more ⟨rfl, h.awaits⟩
    · have hfeed := h.feed
      have hf : Found i.decoder.limits i.feed.stream bodies i.feed.decoder.next :=
        hfeed.limits ▸ Found.next (hfeed.limits.symm ▸ ha) hfeed.awaits
      split at hn
      · next d body hd =>
        cases hn
        rw [hd] at hf
        cases hf with
        | frame hl hw => exact .frame ⟨hl, hw⟩
      · next d hd =>
        cases hn
        rw [hd] at hf
        cases hf with
        | pending hl hw => exact .more ⟨hl, hw⟩
      · cases hn
        exact .stopped (by simp)

end Inbound

/-- The message is written as this body, and the other side reads the body as this message: it is
one that the codecs agree on, and its frame keeps to the limits of the other side. -/
structure Carries (sv sv' : Service) (m : Message) (body : Bytes) : Prop where
  encode : sv.codec.encode m = some body
  decode : sv'.codec.decode body = some m
  admits : Admits sv'.limits [body]

def Crosses (sv sv' : Service) (m : Message) : Prop := ∃ body, Carries sv sv' m body

theorem crosses_of_plain {sv sv' : Service} {m : Message} (hs : sv.codec = {})
    (hs' : sv'.codec = {})
    (hm : m.Plain) (hn : m.detail? ≠ some .null) (hd : m.toJson.depth ≤ Json.maxDepth)
    (ha : Admits sv'.limits [m.encode]) : Crosses sv sv' m := by
  refine ⟨m.encode, by rw [hs], ?_, ha⟩
  have hr := Message.decode_of_plain (Message.definite_envelope.2 hn) (Message.plain_envelope hm hd)
  rw [hs']
  exact congrArg Except.toOption hr

namespace Link

variable {sv sv' : Service} {g g' h h' : Hub} {l l' m m' : Link} {who : Actor}
  {read sent ms : List Message} {bodies : List Bytes}

theorem admits_of_carries (h : List.Forall₂ (Carries sv sv') ms bodies) (hb : bodies ≠ []) :
    Admits sv'.limits bodies := by
  induction h with
  | nil => contradiction
  | @cons m body ms bodies hm h ih =>
      refine ⟨hm.admits.block, hm.admits.width, fun b hb => ?_⟩
      rcases List.mem_cons.1 hb with rfl | hb
      · exact hm.admits.length b (List.mem_singleton_self b)
      · exact (ih (List.ne_nil_of_mem hb)).length b hb

structure Coming (sv sv' : Service) (l' : Link) (read sent : List Message) : Prop where
  heard : read <+: sent
  rest : l'.reader = .done ∨ ∃ rest bodies, sent = read ++ rest ∧
    List.Forall₂ (Carries sv sv') rest bodies ∧ l'.inbound.Holds sv'.limits bodies

namespace Coming

theorem same (h : Coming sv sv' l' read sent) (hr : m'.reader = l'.reader)
    (hi : m'.inbound = l'.inbound) : Coming sv sv' m' read sent :=
  ⟨h.heard, by rw [hr, hi]; exact h.rest⟩

theorem more (h : Coming sv sv' l' read sent) (hc : List.Forall₂ (Carries sv sv') ms bodies)
    (hr : m'.reader = l'.reader) (hd : m'.inbound.decoder = l'.inbound.decoder)
    (hs : m'.inbound.stream = l'.inbound.stream ++ bodies.flatMap Frame.encode) :
    Coming sv sv' m' read (sent ++ ms) where
  heard := h.heard.trans (List.prefix_append _ _)
  rest := by
    rw [hr]
    refine h.rest.imp_right ?_
    rintro ⟨rest, bodies', rfl, hrest, hl, hw⟩
    refine ⟨rest ++ ms, bodies' ++ bodies, by rw [List.append_assoc], List.rel_append hrest hc, ?_, ?_⟩
    · rw [hd, hl]
    · rw [hd, hs]
      exact hw.more bodies

/-- What the reader publishes is the message that comes next. -/
theorem reader (h : Coming sv sv' l' read sent) (hs : stepReader sv' g l' = some (g', m')) :
    Coming sv sv' m' (read ++ Ledger.published l' m') sent := by
  have hquiet (hle : m'.fanout.publications.length ≤ l'.fanout.publications.length)
      (hrest : m'.reader = .done ∨ ∃ rest bodies, sent = read ++ rest ∧
        List.Forall₂ (Carries sv sv') rest bodies ∧ m'.inbound.Holds sv'.limits bodies) :
      Coming sv sv' m' (read ++ Ledger.published l' m') sent := by
    rw [published_nil hle, List.append_nil]
    exact ⟨h.heard, hrest⟩
  have hreading (hrd : l'.reader = .reading) {i : Inbound} {o : Option Arrival}
      (hn : l'.inbound.next? = some (i, o)) : ∃ rest bodies, sent = read ++ rest ∧
        List.Forall₂ (Carries sv sv') rest bodies ∧ Inbound.Gives sv'.limits bodies i o := by
    obtain ⟨rest, bodies, hs, hc, hh⟩ := h.rest.resolve_left (by simp [hrd])
    exact ⟨rest, bodies, hs, hc, hh.next? (admits_of_carries hc) hn⟩
  cases stepReader_course hs with
  | abandoned => exact hquiet (List.length_filter_le _ _) (.inl rfl)
  | stopped | ended => exact hquiet (Nat.le_refl _) (.inl rfl)
  | moved hrd hf =>
      obtain ⟨p, hp⟩ := Flow.Fanout.step?_eq_some hf
      exact hquiet (Flow.Fanout.length_advance hp) (.inr (h.rest.resolve_left (by simp [hrd])))
  | filled hrd hn =>
      obtain ⟨rest, bodies, hs, hc, hg⟩ := hreading hrd hn
      cases hg with
      | more hh => exact hquiet (Nat.le_refl _) (.inr ⟨rest, bodies, hs, hc, hh⟩)
  | skipped hrd hn hd =>
      obtain ⟨rest, bodies, hs, hc, hg⟩ := hreading hrd hn
      cases hg with
      | frame hh =>
          cases hc with
          | cons hm hc => cases hd.symm.trans hm.decode
      | stopped hne => exact absurd rfl (hne _)
  | published hrd hn hd =>
      obtain ⟨rest, bodies, hs, hc, hg⟩ := hreading hrd hn
      cases hg with
      | frame hh =>
          cases hc with
          | @cons m body rest bodies hm hc =>
              cases hd.symm.trans hm.decode
              rw [published_publish rfl, hs]
              exact ⟨⟨rest, by simp⟩, .inr ⟨rest, _, by simp, hc, hh⟩⟩
      | stopped hne => exact absurd rfl (hne _)

end Coming

def fetched (l : Link) : List Message := l.desk.peer.outbound.taken.reverse

theorem fetched_take {msg : Message} (hm : l.desk.peer.outbound.next? = some msg) :
    (l.setOutbound l.desk.peer.outbound.take).fetched = l.fetched ++ [msg] := by
  obtain ⟨rest, hq⟩ := List.head?_eq_some_iff.1 hm
  simp [fetched, setOutbound, setPeer, Flow.Channel.take, hq]

theorem stepWriter_fetched (hs : stepWriter sv h l = some (h', m)) : l.fetched <+: m.fetched := by
  cases (stepWriter_course hs).2 with
  | left => exact List.prefix_refl _
  | skipped hm | written hm | failed hm => exact ⟨_, (fetched_take hm).symm⟩

theorem stepCall_taken {n : Nat} (ht : l.Tidy) (hs : stepCall sv h l n = some (h', m)) :
    m.desk.peer.outbound.taken = l.desk.peer.outbound.taken := by
  obtain ⟨k, q, k', hk, -, hc, rfl⟩ := stepCall_course hs
  rcases Call.step_exchange (ht.call hk).1 hc with
    ⟨x, r, -, hr, -⟩ | ⟨-, hl, -⟩
  · exact Peer.step_taken hr
  · exact hl.taken

theorem step_fetched (ht : l.Tidy) (hw : who ≠ .writer) (hs : l.step sv h who = some (h', m)) :
    m.written = l.written ∧ m.writerDone = l.writerDone ∧ m.fetched = l.fetched := by
  cases who with
  | writer => contradiction
  | reader =>
      obtain ⟨-, _, _, _, rfl⟩ := stepReader_footprint hs
      exact ⟨rfl, rfl, rfl⟩
  | requests =>
      obtain ⟨hl, -⟩ := stepRequests_leaves ht hs
      obtain ⟨_, _, _, _, _, rfl⟩ := stepRequests_footprint hs
      exact ⟨rfl, rfl, congrArg List.reverse hl.taken⟩
  | responses =>
      obtain ⟨-, _, _, _, rfl⟩ := stepResponses_footprint hs
      exact ⟨rfl, rfl, rfl⟩
  | supervisor =>
      obtain ⟨_, _, rfl⟩ := stepSupervisor_footprint hs
      exact ⟨rfl, rfl, rfl⟩
  | call n =>
      obtain ⟨_, _, rfl⟩ := stepCall_footprint hs
      exact ⟨rfl, rfl, congrArg List.reverse (stepCall_taken ht hs)⟩
  | caller n =>
      obtain ⟨x, r, -, hr, -⟩ := stepCaller_exchange hs
      obtain ⟨_, rfl⟩ := stepCaller_footprint hs
      exact ⟨rfl, rfl, congrArg List.reverse (Peer.step_taken hr)⟩

theorem step_heard (hw : who ≠ .reader) (hs : l.step sv h who = some (h', m)) :
    m.reader = l.reader ∧ m.inbound = l.inbound ∧ Ledger.published l m = [] := by
  cases who with
  | reader => contradiction
  | writer =>
      obtain ⟨_, _, _, rfl, -⟩ := stepWriter_footprint hs
      exact ⟨rfl, rfl, published_nil (Nat.le_refl _)⟩
  | requests =>
      have hp : m.fanout.publications = l.fanout.publications := by
        rcases stepRequests_fanout hs with hf | ⟨x, hx⟩
        · rw [hf]
        · simpa [hx] using l.fanout.publications_receive requestQueue
      obtain ⟨_, _, _, _, _, rfl⟩ := stepRequests_footprint hs
      exact ⟨rfl, rfl, published_nil (Nat.le_of_eq (congrArg _ hp))⟩
  | responses =>
      have hp : m.fanout.publications = l.fanout.publications := by
        obtain ⟨-, x, hx⟩ := stepResponses_fanout hs
        simpa [hx] using l.fanout.publications_receive responseQueue
      obtain ⟨-, _, _, _, rfl⟩ := stepResponses_footprint hs
      exact ⟨rfl, rfl, published_nil (Nat.le_of_eq (congrArg _ hp))⟩
  | supervisor =>
      obtain ⟨_, _, rfl⟩ := stepSupervisor_footprint hs
      exact ⟨rfl, rfl, published_nil (Nat.le_refl _)⟩
  | call n =>
      obtain ⟨_, _, rfl⟩ := stepCall_footprint hs
      exact ⟨rfl, rfl, published_nil (Nat.le_refl _)⟩
  | caller n =>
      obtain ⟨_, rfl⟩ := stepCaller_footprint hs
      exact ⟨rfl, rfl, published_nil (Nat.le_refl _)⟩

theorem Aside.fetched (ha : l.Aside m) : m.writerDone = l.writerDone ∧ m.fetched = l.fetched := by
  cases ha with
  | same | send | abort => exact ⟨rfl, rfl⟩
  | outside ho =>
      obtain ⟨_, _, _, _, rfl⟩ := ho
      exact ⟨rfl, rfl⟩

theorem fetched_prefix {read' : List Message} (he : Network.Ends sv sv' l l' read m m' read') :
    l.fetched <+: m.fetched := by
  cases he with
  | @sent who _ _ m ht hs =>
      by_cases hw : who = .writer
      · subst hw
        exact stepWriter_fetched (m := m) hs
      · exact (step_fetched ht hw hs).2.2 ▸ List.prefix_refl _
  | @received who _ _ m ht hs =>
      obtain ⟨inbound, farOpen, he, -⟩ := Network.conveyed_eq m l
      rw [he]
      exact List.prefix_refl _
  | beside ha hw => exact ha.fetched.2 ▸ List.prefix_refl _
  | beyond => exact List.prefix_refl _

structure Transit (sv sv' : Service) (l l' : Link) (read : List Message) : Prop where
  carried : l.written = []
  coming : ∃ sent, sent <+: l.fetched ∧ (l.writerDone = false → sent = l.fetched) ∧
    Coming sv sv' l' read sent

namespace Transit

theorem same (h : Transit sv sv' l l' read) (hw : m.written = l.written)
    (hd : m.writerDone = l.writerDone) (hs : m.fetched = l.fetched) : Transit sv sv' m l' read :=
  ⟨hw.trans h.carried, by rw [hd, hs]; exact h.coming⟩

theorem attach (sv sv' : Service) (c c' : ConnectionId) :
    Transit sv sv' (.attach sv c) (.attach sv' c') [] :=
  ⟨rfl, [], List.prefix_refl _, fun _ => rfl, List.prefix_refl _, .inr ⟨[], [], rfl, .nil, rfl, rfl⟩⟩

theorem convey (hw : m.written = bodies) (hc : List.Forall₂ (Carries sv sv') ms bodies)
    (hs : sent ++ ms <+: m.fetched) (hd : m.writerDone = false → sent ++ ms = m.fetched)
    (h : Coming sv sv' l' read sent) :
    Transit sv sv' { m with written := [] } (Network.conveyed m l') read := by
  obtain ⟨inbound, farOpen, he, hdec, hstr⟩ := Network.conveyed_eq m l'
  rw [he]
  exact ⟨rfl, _, hs, hd, h.more hc rfl hdec (hw ▸ hstr)⟩

theorem quiet (h : Transit sv sv' l l' read) (hw : m.written = l.written)
    (hd : m.writerDone = false → l.writerDone = false ∧ m.fetched = l.fetched)
    (hs : l.fetched <+: m.fetched) :
    Transit sv sv' { m with written := [] } (Network.conveyed m l') read := by
  obtain ⟨hl, sent, hp, he, hc⟩ := h
  have hs' : sent ++ [] <+: m.fetched := by
    rw [List.append_nil]
    exact hp.trans hs
  refine convey (hw.trans hl) .nil hs' (fun hm => ?_) hc
  rw [List.append_nil, he (hd hm).1, (hd hm).2]

theorem writer (h : Transit sv sv' l l' read) (hs : stepWriter sv g l = some (g', m))
    (hx : ∀ msg ∈ m.fetched, Crosses sv sv' msg) :
    Transit sv sv' { m with written := [] } (Network.conveyed m l') read := by
  obtain ⟨hd, hc⟩ := stepWriter_course hs
  cases hc with
  | left => exact h.quiet rfl (fun hc => by cases hc) (List.prefix_refl _)
  | @skipped msg hm he =>
      have hmem : msg ∈ (l.setOutbound l.desk.peer.outbound.take).fetched := by simp [fetched_take hm]
      obtain ⟨body, hb⟩ := hx msg hmem
      cases he.symm.trans hb.encode
  | @written msg body hm he =>
      have hf := fetched_take hm
      obtain ⟨body', hb⟩ := hx msg (hf ▸ List.mem_append_right _ (List.mem_singleton_self msg))
      obtain rfl : body = body' := Option.some.inj (he.symm.trans hb.encode)
      obtain ⟨hl, sent, -, hs, hc⟩ := h
      obtain rfl := hs hd
      exact convey (by simp [hl]) (.cons hb .nil) (hf ▸ List.prefix_refl _) (fun _ => hf.symm) hc
  | failed hm =>
      exact h.quiet rfl (fun hc => by cases hc) ⟨_, (fetched_take hm).symm⟩

/-- Every step of the network leaves what is on its way in transit. -/
theorem step {read' : List Message} (he : Network.Ends sv sv' l l' read m m' read')
    (hx : ∀ msg ∈ m.fetched, Crosses sv sv' msg) (h : Transit sv sv' l l' read) :
    Transit sv sv' m m' read' := by
  cases he with
  | @sent who _ _ m ht hs =>
      by_cases hw : who = .writer
      · subst hw
        exact h.writer hs hx
      · obtain ⟨hw, hd, hf⟩ := step_fetched ht hw hs
        exact h.quiet hw (fun hm => ⟨hd ▸ hm, hf⟩) (hf ▸ List.prefix_refl _)
  | @received who _ _ m ht hs =>
      obtain ⟨hl, sent, hp, hd, hc⟩ := h
      obtain ⟨inbound, farOpen, he, -⟩ := Network.conveyed_eq m l
      have hc' : Coming sv sv' m (read ++ Ledger.published l' m) sent := by
        by_cases hw : who = .reader
        · subst hw
          exact hc.reader hs
        · obtain ⟨hr, hi, hn⟩ := step_heard hw hs
          rw [hn, List.append_nil]
          exact hc.same hr hi
      rw [he]
      exact ⟨hl, sent, hp, hd, hc'.same rfl rfl⟩
  | beside ha hw =>
      exact h.same hw ha.fetched.1 ha.fetched.2
  | beyond ha hi =>
      obtain ⟨hl, sent, hp, hd, hc⟩ := h
      have hr : m'.reader = l'.reader := by
        cases ha with
        | same | send | abort => rfl
        | outside ho =>
            obtain ⟨_, _, _, _, rfl⟩ := ho
            rfl
      exact ⟨hl, sent, hp, hd, hc.same hr hi⟩

end Transit

end Link

end Dispatch

namespace Network

open Dispatch

variable {k : Cable} {x : Network × (Side → Books)} {l l' : Link}

/-- What is read at one end of a cable is what has been taken off the write queue at the other end,
in the same order, as far as it has come. -/
theorem Reachable.read (h : Reachable k x) (s : Side) (hk : k ∈ x.1.cables)
    (hl : (x.1.side s).link? (k.side s) = some l)
    (hl' : (x.1.side s.other).link? (k.side s.other) = some l')
    (hx : ∀ m ∈ l.fetched, Crosses (x.1.side s).service (x.1.side s.other).service m) :
    (x.2 s.other).ledger.read <+: l.fetched := by
  have ht := h.ends s hk rfl rfl hl hl'
    (I := fun l l' read =>
      (∀ m ∈ l.fetched, Crosses (x.1.side s).service (x.1.side s.other).service m) →
      Link.Transit (x.1.side s).service (x.1.side s.other).service l l' read)
    (fun _ => .attach _ _ _ _)
    fun he ht hx => .step he hx (ht fun m hm => hx m ((Link.fetched_prefix he).subset hm))
  obtain ⟨-, sent, hp, -, hc⟩ := ht hx
  exact hc.heard.trans hp

end Network

end Parley
