import Parley.Proofs.Dispatch.Usage

namespace Parley

open Dispatch

namespace Dispatch

variable {c d : ConnectionId} {v w : View}

/-- What one connection does leaves the part of every other one as it is. -/
theorem View.Sound.only {e : Deed} (hv : v.Sound d) (hd : d ≠ c) (hc : Change d v e w) :
    w.registry.only c = v.registry.only c := by
  have hfire (r : InFlight TokenName) (x : Scope) : (r.fire (d, x)).only c = r.only c := by
    rw [InFlight.only_fire, if_neg hd]
  have hrel {s : Nat} {j : Job} (hj : v.job s = some j) :
      (j.release v.registry).only c = v.registry.only c := by
    cases ht : j.ticket with
    | none => simp only [Job.release, ht]
    | some t =>
        simp only [Job.release, ht]
        exact InFlight.only_release_of_ne ((hv.ticket hj ht).1 ▸ hd)
  cases hc with
  | idle | shut | emptied | ended | received | posted | unsent => rfl
  | told | broken | dismissed => exact hfire _ _
  | withdrawn => exact InFlight.only_withdraw_of_ne hd
  | @seized t ts hp =>
      have hm : t ∈ v.purge.doomed := by
        rw [hp]
        exact List.mem_cons_self
      exact InFlight.only_seize_of_ne ((hv.doomed hm).1.1 ▸ hd)
  | struck hp =>
      obtain ⟨-, -, s, -, htoken, -⟩ := (hv.firing hp).1
      rw [InFlight.only_fire, if_neg (htoken ▸ hd)]
  | handled _ hw =>
      cases hw with
      | passed | notified | refused => rfl
      | begun hb => exact InFlight.only_begin?_of_ne hd hb
      | cancelled _ _ hc | missed _ _ hc => exact InFlight.only_cancel_of_ne hd hv.name hc
  | @turned s j r o x hj ht =>
      cases ht with
      | moved | finished | answered | lost => rfl
      | abandoned | discarded | settled => exact hrel hj
      | concluded =>
          cases ht : j.ticket with
          | none => simp only [Job.claim, ht]
          | some t =>
              simp only [Job.claim, ht]
              exact InFlight.only_claim_of_ne ((hv.ticket hj ht).1 ▸ hd)

structure Outer where
  change : Link → Link
  outside : ∀ l : Link, l.Outside (change l)

theorem Outer.id (f : Outer) (l : Link) : (f.change l).id = l.id := by
  obtain ⟨_, _, _, _, h⟩ := f.outside l
  rw [h]

theorem Outer.calls (f : Outer) (l : Link) : (f.change l).calls = l.calls := by
  obtain ⟨_, _, _, _, h⟩ := f.outside l
  rw [h]

inductive Event
  | step (c : ConnectionId) (who : Actor)
  | attach (c : ConnectionId)
  | close (c : ConnectionId)
  | send (c : ConnectionId) (errand : Errand)
  | abort (c : ConnectionId) (n : Nat)
  | outside (c : ConnectionId) (f : Outer)
  | openGate (gate : String)
  | advance (ms : Nat)
  /-- The clock of sessions goes on. -/
  | elapse (n : Nat)
  /-- From now on the store of sessions cannot do these operations. -/
  | fail (operations : List Session.Operation)

def Event.of? : Event → Option ConnectionId
  | step c _ | attach c | close c | send c _ | abort c _ | outside c _ => some c
  | openGate _ | advance _ | elapse _ | fail _ => none

end Dispatch

namespace Dispatcher

def elapse (d : Dispatcher) (n : Nat) : Dispatcher :=
  { d with hub := { d.hub with moment := d.hub.moment + n } }

def fail (d : Dispatcher) (failing : List Session.Operation) : Dispatcher :=
  { d with hub := { d.hub with sessions := { d.hub.sessions with failing } } }

def edit (d : Dispatcher) (c : ConnectionId) (f : Link → Link) : Dispatcher :=
  ((d.link? c).map fun l => d.put (f l)).getD d

def happen (d : Dispatcher) : Event → Dispatcher
  | .step c who => (d.step (c, who)).getD d
  | .attach c => if (d.link? c).isNone then d.attach c else d
  | .close c => d.close c
  | .send c errand => d.edit c fun l => (l.send errand).1
  | .abort c n => d.edit c fun l => { l with desk := l.desk.abort (.caller n) }
  | .outside c f => d.edit c f.change
  | .openGate gate => d.openGate gate
  | .advance ms => d.advance ms
  | .elapse n => d.elapse n
  | .fail operations => d.fail operations

def run (d : Dispatcher) (es : List Event) : Dispatcher := es.foldl happen d

def alone (c : ConnectionId) : Dispatcher → List Event → List Event
  | _, [] => []
  | d, e :: es =>
    (if e.of?.all (· = c) then e else .elapse ((d.happen e).hub.moment - d.hub.moment))
      :: alone c (d.happen e) es

variable {d d' g : Dispatcher} {c c' : ConnectionId} {l : Link} {e : Event}

/-- The registry and the calls agree, and each call holds the session that it is going to save. -/
structure Orderly (d : Dispatcher) : Prop where
  sound : d.Sound
  owned : d.hub.sessions.Owned CallName.session
  holding : ∀ {c l}, d.link? c = some l → l.Holding d.hub

@[simp] theorem hub_edit (d : Dispatcher) (c : ConnectionId) (f : Link → Link) :
    (d.edit c f).hub = d.hub := by
  rw [edit]
  cases d.link? c <;> rfl

@[simp] theorem service_edit (d : Dispatcher) (c : ConnectionId) (f : Link → Link) :
    (d.edit c f).service = d.service := by
  rw [edit]
  cases d.link? c <;> rfl

theorem link?_edit {f : Link → Link} (hf : ∀ l : Link, (f l).id = l.id) :
    (d.edit c' f).link? c = if c = c' then (d.link? c).map f else d.link? c := by
  rw [edit]
  cases hl : d.link? c' with
  | none =>
      split
      · next h => rw [h, hl]; exact hl
      · rfl
  | some l =>
      have hi : (f l).id = c' := (hf l).trans (id_of_link? hl)
      change (d.put (f l)).link? c = _
      rw [link?_put, hi]
      split
      · next h => rw [h, hl]; rfl
      · rfl

theorem next_happen (d : Dispatcher) (e : Event) : d.happen e = d ∨ ∃ t, Next d t (d.happen e) := by
  cases e with
  | step c who =>
      cases h : d.step (c, who) with
      | none => exact .inl (by simp [happen, h])
      | some d' => exact .inr ⟨_, by simpa [happen, h] using Next.step h⟩
  | attach c =>
      by_cases h : d.link? c = none
      · exact .inr ⟨none, by simpa [happen, h] using Next.attach h⟩
      · exact .inl (by simp [happen, h])
  | close c => exact .inr ⟨none, .close d c⟩
  | send c errand =>
      cases h : d.link? c with
      | none => exact .inl (by simp [happen, edit, h])
      | some l =>
          have hs : d.send c errand = some (d.put (l.send errand).1, (l.send errand).2) := by
            simp [send, h]
          exact .inr ⟨none, by simpa [happen, edit, h] using Next.send hs⟩
  | abort c n =>
      cases h : d.link? c with
      | none => exact .inl (by simp [happen, edit, h])
      | some l => exact .inr ⟨none, by simpa [happen, edit, h] using Next.abort n h⟩
  | outside c f =>
      cases h : d.link? c with
      | none => exact .inl (by simp [happen, edit, h])
      | some l => exact .inr ⟨none, by simpa [happen, edit, h] using Next.outside h (f.outside l)⟩
  | openGate | advance | elapse | fail => exact .inr ⟨none, .world rfl⟩

theorem Orderly.fit (hd : d.Orderly) (hl : d.link? c = some l) : l.Fit d.hub := by
  intro n k hk
  have hi := id_of_link? hl
  have hn : k.serial = n := Link.serial_of_call? hk
  have hj : (l.view d.hub).job n = some k.job := by simp [Link.view, hk]
  have hv := (hd.sound.linked hl).2
  exact ⟨hd.holding hl n k hk, by rw [hi, hn]; exact hv.token hj,
    fun t ht => hi ▸ (hv.ticket hj ht).1⟩

theorem Orderly.step {t : Task} (hd : d.Orderly) (hs : d.step t = some d') : d'.Orderly := by
  obtain ⟨c, who⟩ := t
  obtain ⟨m, m', hub, hm, hs', rfl⟩ := step_eq_some hs
  obtain ⟨⟨n, hg⟩, hi, hh⟩ := Link.goes_step hd.owned (hd.holding hm) hs'
  refine ⟨hd.sound.next (.step hs), hg.owned hd.owned, fun {c' l} hl => ?_⟩
  have hm' : m'.id = c := hi.trans (id_of_link? hm)
  by_cases h : c' = c
  · subst h
    obtain rfl : m' = l := Option.some.inj ((link?_put_self hm hm').symm.trans hl)
    exact hh (hd.holding hm)
  · change (d.put m').link? c' = some l at hl
    rw [link?_put, if_neg fun e => h (e.trans hm')] at hl
    intro s k hk
    obtain ⟨h1, h2⟩ := hd.holding hl s k hk
    refine ⟨h1, fun hr a ha => hg.holds (h2 hr a ha) fun he => h ?_⟩
    rw [← id_of_link? hl, ← id_of_link? hm]
    exact (Prod.mk.inj he).1

theorem Orderly.holding_edit {f : Link → Link} (hd : d.Orderly) (hf : ∀ l : Link, (f l).id = l.id)
    (hc : ∀ l : Link, (f l).calls = l.calls) (hl : (d.edit c' f).link? c = some l) :
    l.Holding (d.edit c' f).hub := by
  rw [link?_edit hf] at hl
  rw [hub_edit]
  split at hl
  · obtain ⟨m, hm, rfl⟩ := Option.map_eq_some_iff.1 hl
    intro n k hk
    rw [Link.call?, hc] at hk
    exact hf m ▸ hd.holding hm n k hk
  · exact hd.holding hl

theorem Orderly.edit {f : Link → Link} (hd : d.Orderly) (hs : (d.edit c f).Sound)
    (hf : ∀ l : Link, (f l).id = l.id) (hc : ∀ l : Link, (f l).calls = l.calls) :
    (d.edit c f).Orderly :=
  ⟨hs, by rw [hub_edit]; exact hd.owned, hd.holding_edit hf hc⟩

theorem service_happen (d : Dispatcher) (e : Event) : (d.happen e).service = d.service := by
  cases e with
  | step c who =>
      cases h : d.step (c, who) with
      | none => simp [happen, h]
      | some d' =>
          obtain ⟨m, m', hub, -, -, rfl⟩ := step_eq_some h
          simp [happen, h, put]
  | attach c =>
      simp only [happen]
      split <;> rfl
  | send | abort | outside => exact service_edit _ _ _
  | close | openGate | advance | elapse | fail => rfl

theorem Orderly.happen (hd : d.Orderly) (e : Event) : (d.happen e).Orderly := by
  have hsound : (d.happen e).Sound := by
    rcases next_happen d e with h | ⟨t, h⟩
    · rw [h]; exact hd.sound
    · exact hd.sound.next h
  have hkeep (hl : ∀ c, (d.happen e).link? c = d.link? c)
      (hs : (d.happen e).hub.sessions.shared = d.hub.sessions.shared)
      (hh : (d.happen e).hub.sessions.holds = d.hub.sessions.holds) : (d.happen e).Orderly :=
    ⟨hsound, ⟨hs ▸ hd.owned.shared, hh ▸ hd.owned.holds⟩,
      fun {c l} h n k hk => (hd.holding (hl c ▸ h) n k hk).congr hh⟩
  cases e with
  | step c who =>
      cases h : d.step (c, who) with
      | none => simpa [Dispatcher.happen, h] using hd
      | some d' => simpa [Dispatcher.happen, h] using hd.step h
  | attach c =>
      by_cases h : d.link? c = none
      · simp only [Dispatcher.happen, h, Option.isNone_none, if_true] at hsound ⊢
        refine ⟨hsound, hd.owned, fun {c' l} hl => ?_⟩
        rw [link?_attach] at hl
        rcases Option.or_eq_some_iff.1 hl with hl | ⟨-, hl⟩
        · exact fun n k hk => (hd.holding hl n k hk).congr rfl
        · split at hl <;> cases hl
          intro n k hk
          cases hk
      · simpa [Dispatcher.happen, h] using hd
  | send c errand => exact hd.edit hsound (fun _ => rfl) fun _ => rfl
  | abort c n => exact hd.edit hsound (fun _ => rfl) fun _ => rfl
  | outside c f => exact hd.edit hsound f.id f.calls
  | close | openGate | advance | elapse | fail => exact hkeep (fun _ => rfl) rfl rfl

theorem Orderly.apart_step {d' : Dispatcher} {who : Actor} (hd : d.Orderly)
    (h : d.step (c', who) = some d') (hc : c' ≠ c) :
    d'.link? c = d.link? c ∧ d.hub.moment ≤ d'.hub.moment ∧
      d'.hub.only c = ({ d.hub with moment := d'.hub.moment } : Hub).only c := by
  obtain ⟨m, m', hub, hm, hs, rfl, -, hch⟩ := change_of_step hd.sound h
  have hi := id_of_link? hm
  obtain ⟨⟨n, hg⟩, hi', -⟩ := Link.goes_step hd.owned (hd.holding hm) hs
  have hr : hub.inflight.only c = d.hub.inflight.only c := (hd.sound.linked hm).2.only hc hch
  have hne : CallName.session (m.id, n) ≠ c.session := by
    rw [hi]
    exact fun he => hc (ConnectionId.session_inj he)
  refine ⟨?_, hg.moment, Hub.only_ext hr (hg.only hd.owned hne) rfl hg.now hg.gates⟩
  change (d.put m').link? c = _
  rw [link?_put_of_ne (hi'.trans hi) hc]

theorem Orderly.apart (hd : d.Orderly) (he : e.of? = some c') (hc : c' ≠ c) :
    (d.happen e).link? c = d.link? c ∧ d.hub.moment ≤ (d.happen e).hub.moment ∧
      (d.happen e).hub.only c = ({ d.hub with moment := (d.happen e).hub.moment } : Hub).only c := by
  have hedit {f : Link → Link} (hf : ∀ l : Link, (f l).id = l.id) :
      (d.edit c' f).link? c = d.link? c ∧ d.hub.moment ≤ (d.edit c' f).hub.moment ∧
        (d.edit c' f).hub.only c =
          ({ d.hub with moment := (d.edit c' f).hub.moment } : Hub).only c := by
    rw [hub_edit, link?_edit hf, if_neg (Ne.symm hc)]
    exact ⟨rfl, Nat.le_refl _, rfl⟩
  cases e with
  | step c who =>
      cases he
      cases h : d.step (c', who) with
      | none => simp [Dispatcher.happen, h]
      | some d' =>
          simp only [Dispatcher.happen, h, Option.getD_some]
          exact hd.apart_step h hc
  | attach c =>
      cases he
      by_cases h : d.link? c' = none
      · simp only [Dispatcher.happen, h, Option.isNone_none, if_true]
        refine ⟨?_, Nat.le_refl _, rfl⟩
        rw [link?_attach, if_neg hc, Option.or_none]
      · simp [Dispatcher.happen, h]
  | close c =>
      cases he
      refine ⟨rfl, Nat.le_refl _, Hub.only_ext ?_ rfl rfl rfl rfl⟩
      exact (InFlight.only_fire _).trans (if_neg hc)
  | send c errand => cases he; exact hedit fun _ => rfl
  | abort c n => cases he; exact hedit fun _ => rfl
  | outside c f => cases he; exact hedit f.id
  | openGate | advance | elapse | fail => cases he

structure Same (c : ConnectionId) (d g : Dispatcher) : Prop where
  service : d.service = g.service
  link : d.link? c = g.link? c
  hub : d.hub.only c = g.hub.only c

/-- A step comes to the same in both, or to nothing in both. -/
theorem Same.step (hs : Same c d g) (hd : d.Orderly) (hg : g.Orderly) (who : Actor) :
    Same c (d.happen (.step c who)) (g.happen (.step c who)) := by
  cases hl : d.link? c with
  | none =>
      have hl' := hs.link ▸ hl
      simpa [Dispatcher.happen, Dispatcher.step, hl, hl'] using hs
  | some l =>
      have hl' : g.link? c = some l := hs.link ▸ hl
      have hi := id_of_link? hl
      have hstep := Link.step_congr d.service (hi.symm ▸ hs.hub) hd.owned hg.owned
        (hd.fit hl) (hg.fit hl') who
      simp only [Dispatcher.happen, Dispatcher.step, hl, hl', ← hs.service, Option.bind_eq_bind,
        Option.bind_some]
      generalize l.step d.service d.hub who = x at hstep
      generalize l.step d.service g.hub who = y at hstep
      cases hstep with
      | none => simpa using hs
      | @some x y hxy =>
          obtain ⟨hub, m⟩ := x
          obtain ⟨hub', m'⟩ := y
          obtain ⟨h1, rfl : m = m'⟩ := hxy
          refine ⟨hs.service, ?_, hi ▸ h1⟩
          change (d.put m).link? c = (g.put m).link? c
          rw [link?_put, link?_put, hs.link]

theorem Same.happen (hs : Same c d g) (hd : d.Orderly) (hg : g.Orderly) (he : e.of?.all (· = c)) :
    Same c (d.happen e) (g.happen e) := by
  have hedit {f : Link → Link} (hf : ∀ l : Link, (f l).id = l.id) :
      Same c (d.edit c f) (g.edit c f) :=
    ⟨by simpa using hs.service, by rw [link?_edit hf, link?_edit hf, hs.link], by simpa using hs.hub⟩
  have hr := Hub.inflight_of_only hs.hub
  have hm := Hub.sessions_of_only hs.hub
  have ht := Hub.moment_of_only hs.hub
  have hn := Hub.now_of_only hs.hub
  have hgates := Hub.gates_of_only hs.hub
  cases e with
  | step c' who =>
      obtain rfl : c' = c := by simpa [Event.of?] using he
      exact hs.step hd hg who
  | attach c' =>
      obtain rfl : c' = c := by simpa [Event.of?] using he
      by_cases h : d.link? c' = none
      · have h' : g.link? c' = none := hs.link ▸ h
        simp only [Dispatcher.happen, h, h', Option.isNone_none, if_true]
        exact ⟨hs.service, by rw [link?_attach, link?_attach, hs.link, hs.service], hs.hub⟩
      · have h' : g.link? c' ≠ none := hs.link ▸ h
        simpa [Dispatcher.happen, h, h'] using hs
  | close c' =>
      obtain rfl : c' = c := by simpa [Event.of?] using he
      exact ⟨hs.service, hs.link, Hub.only_fire hs.hub .connection⟩
  | send c' errand =>
      obtain rfl : c' = c := by simpa [Event.of?] using he
      exact hedit fun _ => rfl
  | abort c' n =>
      obtain rfl : c' = c := by simpa [Event.of?] using he
      exact hedit fun _ => rfl
  | outside c' f =>
      obtain rfl : c' = c := by simpa [Event.of?] using he
      exact hedit f.id
  | openGate gate =>
      exact ⟨hs.service, hs.link, Hub.only_ext hr hm ht hn (congrArg (gate :: ·) hgates)⟩
  | advance ms => exact ⟨hs.service, hs.link, Hub.only_ext hr hm ht (congrArg (· + ms) hn) hgates⟩
  | elapse n => exact ⟨hs.service, hs.link, Hub.only_ext hr hm (congrArg (· + n) ht) hn hgates⟩
  | fail operations =>
      have hf : ({ d.hub.sessions.only c.session with failing := operations } :
          Session.Manager CallName) = { g.hub.sessions.only c.session with failing := operations } := by
        rw [hm]
      exact ⟨hs.service, hs.link, Hub.only_ext hr hf ht hn hgates⟩

theorem Same.apart (hs : Same c d g) (hd : d.Orderly) (he : e.of? = some c') (hc : c' ≠ c) :
    Same c (d.happen e) (g.happen (.elapse ((d.happen e).hub.moment - d.hub.moment))) := by
  obtain ⟨h1, h2, h3⟩ := hd.apart he hc
  have hr := Hub.inflight_of_only hs.hub
  have hm := Hub.sessions_of_only hs.hub
  have hn := Hub.now_of_only hs.hub
  have hg := Hub.gates_of_only hs.hub
  have ht : (d.happen e).hub.moment = g.hub.moment + ((d.happen e).hub.moment - d.hub.moment) := by
    have := Hub.moment_of_only hs.hub
    omega
  exact ⟨(service_happen d e).trans hs.service, h1.trans hs.link,
    h3.trans (Hub.only_ext hr hm ht hn hg)⟩

theorem of?_of_aside (he : ¬e.of?.all (· = c) = true) : ∃ c', e.of? = some c' ∧ c' ≠ c := by
  cases h : e.of? with
  | none => simp [h] at he
  | some c' => exact ⟨c', rfl, by simpa [h] using he⟩

theorem same_alone (hs : Same c d g) (hd : d.Orderly) (hg : g.Orderly) (es : List Event) :
    Same c (d.run es) (g.run (alone c d es)) := by
  induction es generalizing d g with
  | nil => exact hs
  | cons e es ih =>
      rw [alone]
      split
      · next he => exact ih (hs.happen hd hg he) (hd.happen e) (hg.happen e)
      · next he =>
        obtain ⟨c', hc', hc⟩ := of?_of_aside he
        exact ih (hs.apart hd hc' hc) (hd.happen e) (hg.happen _)

/-- What there is of a connection, with all that has been queued for its peer, its requests in
flight, its own requests that are pending and its session, is what it would be if nothing had
happened to any other connection. -/
theorem isolated (service : Service) (store : Session.Store) (c : ConnectionId) (es : List Event) :
    let d := serving service { store }
    let x := d.run es
    let y := d.run (alone c d es)
    x.link? c = y.link? c ∧ x.hub.inflight.only c = y.hub.inflight.only c ∧
      x.hub.sessions.only c.session = y.hub.sessions.only c.session := by
  intro d x y
  have hd : d.Orderly :=
    ⟨sound_serving _ _, ⟨List.nodup_nil, by simp [d, serving]⟩, fun hl => by cases hl⟩
  obtain ⟨-, h1, h2⟩ := same_alone (c := c) ⟨rfl, rfl, rfl⟩ hd hd es
  exact ⟨h1, Hub.inflight_of_only h2, Hub.sessions_of_only h2⟩

end Dispatcher

end Parley
