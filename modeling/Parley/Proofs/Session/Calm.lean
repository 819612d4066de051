import Parley.Proofs.Session.Manager
import Parley.Session.Basic

namespace Parley.Session

namespace Store

variable {s t : Store} {a b : Handle} {x : Session} {id : SessionId} {now : Nat}

def content? (s : Store) (a : Handle) : Option Session := (s.get? a).map (·.touch 0)

theorem attributes_content? :
    (s.content? a).map (·.attributes) = (s.get? a).map (·.attributes) :=
  Option.map_map ..

theorem content?_touch : (s.modify a (·.touch now)).content? = s.content? := by
  funext b
  rw [content?, content?, get?_modify]
  split
  · next h =>
    subst h
    exact Option.map_map ..
  · rfl

theorem content?_keep : (s.keep a now).content? = s.content? :=
  (content?_touch : (s.modify a (·.touch now)).content? = s.content?)

theorem content?_act (act : Act) :
    (s.modify a act.run).content? b = if b = a then (s.content? a).map act.run else s.content? b := by
  rw [content?, get?_modify]
  split
  · rw [content?, Option.map_map, Option.map_map]
    cases act <;> rfl
  · rfl

theorem Created.content? (h : Created s t id now a) (b : Handle) :
    t.content? b = if b = a then some { id } else s.content? b := by
  rw [Store.content?, h.get?]
  split <;> rfl

def Quiet (s : Store) : Prop := ∀ a x, s.content? a = some x → x.expired = false ∧ x.started = false

theorem Quiet.of_content? (h : s.Quiet) (he : t.content? = s.content?) : t.Quiet := by
  rw [Quiet, he]
  exact h

theorem Quiet.get? (h : s.Quiet) (hx : s.get? a = some x) : x.expired = false ∧ x.started = false :=
  h a (x.touch 0) (by rw [content?, hx]; rfl)

theorem Quiet.isExpired (h : s.Quiet) (ha : a ∈ s.handles) : s.isExpired a = false := by
  obtain ⟨x, hx⟩ := mem_handles.1 ha
  exact isExpired_eq_false.2 ⟨x, hx, (h.get? hx).1⟩

theorem Quiet.created (h : s.Quiet) (hc : Created s t id now a) : t.Quiet := by
  intro b x hx
  rw [hc.content?] at hx
  split at hx
  · cases hx
    exact ⟨rfl, rfl⟩
  · exact h b x hx

theorem Quiet.act {act : Act} (h : s.Quiet) (hs : act ≠ .start) (hi : act ≠ .invalidate) :
    (s.modify a act.run).Quiet := by
  intro b x hx
  rw [content?_act] at hx
  split at hx
  · obtain ⟨y, hy, rfl⟩ := Option.map_eq_some_iff.1 hx
    obtain ⟨he, hn⟩ := h a y hy
    cases act <;> first | exact ⟨he, hn⟩ | contradiction
  · exact h b x hx

def isFilled (s : Store) (a : Handle) : Bool := (s.get? a).any fun x => !x.attributes.isEmpty

theorem Quiet.any_isActive (h : s.Quiet) : (s.get? a).any Manager.isActive = s.isFilled a := by
  rw [isFilled]
  cases hx : s.get? a with
  | none => rfl
  | some x => simp [Manager.isActive, Session.isStarted, h.get? hx]

theorem isFilled_of_content? (he : t.content? = s.content?) : t.isFilled a = s.isFilled a := by
  have h {u : Store} :
      u.isFilled a = ((u.content? a).map (·.attributes)).any fun ms => !ms.isEmpty := by
    rw [attributes_content?, Option.any_map]
    rfl
  rw [h, h, he]

def Timely (s : Store) (now : Nat) : Prop :=
  ∀ a ∈ s.stored, ∀ x ∈ s.get? a, x.isIdle s.maxIdle now = false

instance (s : Store) (now : Nat) : Decidable (s.Timely now) :=
  inferInstanceAs (Decidable (∀ a ∈ s.stored, ∀ x ∈ s.get? a, x.isIdle s.maxIdle now = false))

theorem Timely.isFresh (ht : s.Timely now) (hq : s.Quiet) (ha : a ∈ s.stored) (hk : a ∈ s.handles) :
    s.isFresh now a = true := by
  obtain ⟨x, hx⟩ := mem_handles.1 hk
  exact isFresh_iff.2 ⟨x, hx, (hq.get? hx).1, ht a ha x hx⟩

end Store

namespace Manager

variable {χ : Type} {m : Manager χ} {a b c : Handle} {ids : List SessionId} {id spare : SessionId}
  {now : Nat}

def savedIds (m : Manager χ) : List SessionId := m.store.stored.map Handle.id

def chosen (saved ids : List SessionId) (spare : SessionId) : SessionId :=
  (ids.find? (· ∈ saved)).getD (ids.headD spare)

theorem chosen_of_head? {saved : List SessionId} (h : ids.head? = some id) (hs : id ∈ saved) :
    chosen saved ids spare = id := by
  obtain ⟨ids', rfl⟩ := List.head?_eq_some_iff.1 h
  simp [chosen, hs]

theorem Sound.retrieveFirst (h : m.Sound) (hq : m.store.Quiet) (ht : m.store.Timely now)
    (ids : List SessionId) :
    (m.retrieveFirst now ids = (m, none) ∧ ids.find? (· ∈ m.savedIds) = none) ∨
    ∃ t a, m.retrieveFirst now ids = ({ m with store := t }, some a) ∧ a ∈ m.store.stored ∧
      ids.find? (· ∈ m.savedIds) = some a.id ∧ t.stored = m.store.stored ∧
      t.content? = m.store.content? := by
  induction ids with
  | nil => exact .inl ⟨rfl, rfl⟩
  | cons id ids ih =>
      cases hf : m.store.find? id with
      | none =>
          -- Nothing has happened to the store, so that the rest is looked up in the same one.
          have hn : ¬id ∈ m.savedIds := by
            simpa [savedIds] using Store.find?_eq_none.1 hf
          rw [Manager.retrieveFirst, Store.retrieve_of_none hf, List.find?_cons_of_neg (by simpa using hn)]
          exact ih
      | some a =>
          obtain ⟨ha, rfl⟩ := Store.find?_some hf
          have hfresh := ht.isFresh hq ha (h.known (.inl ha))
          refine .inr ⟨m.store.modify a (·.touch now), a, ?_, ha, ?_, rfl, Store.content?_touch⟩
          · rw [Manager.retrieveFirst, Store.retrieve_of_fresh hf hfresh]
          · rw [List.find?_cons_of_pos (by simpa [savedIds] using ⟨a, ha, rfl⟩)]

/-- What a call gets: a session that is in use, or a new one when its id is not in use. -/
structure Gets (m m' : Manager χ) (a : Handle) : Prop where
  holds : m'.holds = m.holds
  stored : m'.store.stored = m.store.stored
  quiet : m'.store.Quiet
  content : ∀ {b}, m.Has b → m'.store.content? b = m.store.content? b
  session : m.Has a ∨ (∀ b, m.Has b → b.id ≠ a.id) ∧ m'.store.content? a = some { id := a.id }

theorem gets_stored {t : Store} {r : Manager χ × Handle} (hq : m.store.Quiet)
    (ha : a ∈ m.store.stored) (hst : t.stored = m.store.stored)
    (hct : t.content? = m.store.content?)
    (hn : ({ m with store := t } : Manager χ).Sound) (hs : Sharing { m with store := t } a r) :
    r.2.id = a.id ∧ m.Gets r.1 r.2 := by
  have hat : ({ m with store := t } : Manager χ).Has a := .inl (hst ▸ ha)
  have he : t.isExpired a = false := (hq.of_content? hct).isExpired (hn.known hat)
  -- The stored session has not expired, so it is the one that is in use.
  cases hs with
  | old b hb hib heb =>
      obtain rfl := hn.unique hb hat hib heb he
      exact ⟨rfl, rfl, hst, hq.of_content? hct, fun _ => by rw [hct], .inl (.inl ha)⟩
  | new hv => exact Bool.noConfusion (he.symm.trans (hv a hat rfl))

theorem Sound.gets_new {t : Store} {r : Manager χ × Handle} (h : m.Sound) (hq : m.store.Quiet)
    (hc : m.store.Created t id now c) (hs : Sharing { m.prune with store := t } c r) :
    r.2.id = id ∧ m.Gets r.1 r.2 := by
  have hn : ({ m.prune with store := t } : Manager χ).Sound := h.prune.created hc
  have has {b} : ({ m.prune with store := t } : Manager χ).Has b ↔ m.Has b := by
    rw [Has, Has, hc.stored]
    rfl
  have hcontent {b} (hb : m.Has b) : t.content? b = m.store.content? b := by
    have hne : b ≠ c := fun e => hc.new (e ▸ h.known hb)
    rw [hc.content?, if_neg hne]
  cases hs with
  | old a ha hi he =>
      exact ⟨hi.trans hc.named, rfl, hc.stored, hq.created hc, hcontent, .inl (has.1 ha)⟩
  | new hv =>
      refine ⟨hc.named, rfl, hc.stored, hq.created hc, hcontent, .inr ⟨fun b hb hib => ?_, ?_⟩⟩
      · have he := (hq.created hc).isExpired (hn.known (has.2 hb))
        exact Bool.noConfusion (he.symm.trans (hv b (has.2 hb) hib))
      · change t.content? c = _
        rw [hc.content?, if_pos rfl, hc.named]

theorem Sound.gets (h : m.Sound) (hf : m.failing = []) (hq : m.store.Quiet)
    (ht : m.store.Timely now) (ids : List SessionId) (spare : SessionId) :
    ∃ m' a, m.resolve ids spare now = (m', .ok a) ∧ a.id = chosen m.savedIds ids spare ∧
      m.Gets m' a := by
  have hn := (h.candidate ids spare now).1
  have hs := hn.share (m.candidate ids spare now).2
  refine ⟨_, _, resolve_eq hf, ?_⟩
  rcases h.retrieveFirst hq ht ids with ⟨hr, hi⟩ | ⟨t, a, hr, ha, hi, hst, hct⟩
  · rw [Manager.candidate, hr] at hs ⊢
    rw [chosen, hi]
    exact h.gets_new hq (h.numbered.create (ids.headD spare) now) hs
  · rw [Manager.candidate, hr] at hs hn ⊢
    rw [chosen, hi]
    exact gets_stored hq ha hst hct hn hs

structure Keeps (m : Manager χ) (as : List Handle) (t : Store) : Prop where
  content : t.content? = m.store.content?
  stored : ∀ {a}, a ∈ t.stored → a ∈ m.store.stored ∨ a ∈ as
  saved : ∀ {id}, id ∈ t.stored.map Handle.id ↔
    id ∈ m.savedIds ∨ id ∈ (as.filter m.store.isFilled).map Handle.id

theorem keeps (as : List Handle) (hf : m.failing = []) (hq : m.store.Quiet) (now : Nat) :
    ∃ t, m.saveAll now as = ({ m with store := t }, .ok ()) ∧ m.Keeps as t := by
  induction as generalizing m with
  | nil => exact ⟨m.store, rfl, rfl, .inl, by simp [savedIds]⟩
  | cons a as ih =>
      rw [Manager.saveAll, saveIfActive_eq hf, hq.any_isActive]
      cases ha : m.store.isFilled a with
      | false =>
          obtain ⟨t, ht, hk⟩ := ih hf hq
          refine ⟨t, ht, hk.content, fun hb => (hk.stored hb).imp_right (List.mem_cons_of_mem _), ?_⟩
          rw [List.filter_cons_of_neg (by simp [ha])]
          exact hk.saved
      | true =>
          obtain ⟨t, ht, hk⟩ := ih (m := { m with store := m.store.keep a now }) hf
            (hq.of_content? Store.content?_keep)
          have hfilled : (m.store.keep a now).isFilled = m.store.isFilled :=
            funext fun b => Store.isFilled_of_content? Store.content?_keep
          refine ⟨t, ht, hk.content.trans Store.content?_keep, fun hb => ?_, fun {id} => ?_⟩
          · rcases hk.stored hb with hb | hb
            · rcases Store.mem_stored_keep.1 hb with hb | rfl
              · exact .inl hb.1
              · exact .inr List.mem_cons_self
            · exact .inr (List.mem_cons_of_mem _ hb)
          · have hs : id ∈ ((m.store.keep a now).stored.map Handle.id) ↔
                id ∈ m.savedIds ∨ id = a.id := by
              simp only [savedIds, List.mem_map, Store.mem_stored_keep]
              by_cases hid : id = a.id
              · subst hid
                exact ⟨fun _ => .inr rfl, fun _ => ⟨a, .inr rfl, rfl⟩⟩
              · grind
            rw [hk.saved, savedIds, hs, hfilled, List.filter_cons_of_pos ha, List.map_cons, List.mem_cons]
            tauto

end Manager

end Parley.Session
