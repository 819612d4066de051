import Parley.Proofs.Session.Calm

namespace Parley.Session.Manager

variable {χ : Type} {m m' : Manager χ} {a : Handle} {who : χ} {id : SessionId} {now : Nat}
  {ms : Json.Members}

/-- All sessions that there are have the id and the attributes. -/
structure Shows (m : Manager χ) (id : SessionId) (ms : Json.Members) : Prop where
  sound : m.Sound
  quiet : m.store.Quiet
  own : ∀ {a}, m.Has a → a.id = id
  shown : ∀ {a}, m.Has a → m.store.content? a = some { id, attributes := ms }
  blank : (∀ a, ¬m.Has a) → ms = []

theorem shows_empty (maxIdle : Nat) (id : SessionId) :
    ({ store := { maxIdle } } : Manager χ).Shows id [] := by
  have hnone (a : Handle) : ¬({ store := { maxIdle } } : Manager χ).Has a := by
    rintro (ha | ⟨_, ha⟩) <;> cases ha
  exact ⟨sound_empty _ rfl rfl, nofun, fun ha => absurd ha (hnone _),
    fun ha => absurd ha (hnone _), fun _ => rfl⟩

theorem chosen_singleton (saved : List SessionId) (id : SessionId) : chosen saved [id] id = id := by
  by_cases h : id ∈ saved <;> simp [chosen, h]

theorem has_hold {b : Handle} : (m.hold who a).Has b ↔ m.Has b ∨ b = a := by
  simp only [Has, hold, List.mem_append, List.mem_singleton, Prod.mk.injEq, exists_or, or_assoc]
  refine or_congr_right (or_congr_right ⟨?_, ?_⟩)
  · rintro ⟨_, -, hb⟩
    exact hb
  · exact fun hb => ⟨who, rfl, hb⟩

namespace Shows

theorem unique {b : Handle} (h : m.Shows id ms) (ha : m.Has a) (hb : m.Has b) : a = b :=
  h.sound.unique ha hb ((h.own ha).trans (h.own hb).symm)
    (h.quiet.isExpired (h.sound.known ha)) (h.quiet.isExpired (h.sound.known hb))

theorem get? (h : m.Shows id ms) (ha : m.Has a) :
    ∃ t, m.store.get? a = some { id, attributes := ms, lastAccessed := t } := by
  obtain ⟨x, hx, hc⟩ := Option.map_eq_some_iff.1 (h.shown ha)
  obtain ⟨xid, attributes, started, expired, t⟩ := x
  cases hc
  exact ⟨t, hx⟩

theorem fail (h : m.Shows id ms) (failing : List Operation) :
    ({ m with failing } : Manager χ).Shows id ms :=
  ⟨h.sound.fewer (.refl _) rfl fun _ he => he, h.quiet, h.own, h.shown, h.blank⟩

theorem resolve (h : m.Shows id ms) (hf : m.failing = []) (ht : m.store.Timely now) :
    ∃ m' a, m.resolve [id] id now = (m', .ok a) ∧ a.id = id ∧ m'.holds = m.holds ∧
      ∀ who, (m'.hold who a).Shows id ms := by
  obtain ⟨m', a, hr, hi, hg⟩ := h.sound.gets hf h.quiet ht [id] id
  obtain ⟨m'', a', hr', ho, -, hh⟩ := h.sound.resolve hf [id] id now
  obtain ⟨rfl, rfl⟩ : m' = m'' ∧ a = a' := by simpa using hr.symm.trans hr'
  have hid : a.id = id := hi.trans (chosen_singleton _ id)
  refine ⟨m', a, hr, hid, hh, fun who => ?_⟩
  have has {b : Handle} (hb : (m'.hold who a).Has b) : m.Has b ∨ b = a :=
    (has_hold.1 hb).imp_left fun hb => by rwa [Has, hg.stored, hg.holds] at hb
  have hshown {b : Handle} (hb : m.Has b) : m'.store.content? b = some { id, attributes := ms } :=
    (hg.content hb).trans (h.shown hb)
  refine ⟨(ho.hold who).sound, hg.quiet, fun hb => ?_, fun {b} hb => ?_, fun hn => ?_⟩
  · rcases has hb with hb | rfl
    · exact h.own hb
    · exact hid
  · rcases has hb with hb | rfl
    · exact hshown hb
    · rcases hg.session with hb | ⟨hn, hc⟩
      · exact hshown hb
      · -- A new session has no attributes, and then there was none of the id before.
        have hms : ms = [] := h.blank fun b hb => hn b hb ((h.own hb).trans hid.symm)
        rw [hms, ← hid]
        exact hc
  · exact absurd (has_hold.2 (.inr rfl)) (hn a)

theorem edit {f : Session → Session} {g : Json.Members → Json.Members} (h : m.Shows id ms)
    (ha : m.Has a) (hf : ∀ x, f x = { x with attributes := g x.attributes }) :
    (m.edit a f).Shows id (g ms) := by
  have hcontent (b : Handle) : (m.edit a f).store.content? b =
      if b = a then (m.store.content? a).map f else m.store.content? b := by
    change (m.store.modify a f).content? b = _
    rw [Store.content?, Store.get?_modify]
    split
    · rw [Store.content?, Option.map_map, Option.map_map]
      congr 1
      funext x
      simp only [Function.comp_apply, hf]
      rfl
    · rfl
  have hfades : m.store.Fades (m.edit a f).store := .modify a fun x hx => by rwa [hf] at hx
  refine ⟨h.sound.fades hfades, fun b x hx => ?_, h.own, fun {b} hb => ?_, fun hn => ?_⟩
  · rw [hcontent] at hx
    split at hx
    · obtain ⟨y, hy, rfl⟩ := Option.map_eq_some_iff.1 hx
      rw [hf]
      exact h.quiet _ y hy
    · exact h.quiet _ x hx
  · obtain rfl := h.unique ha hb
    rw [hcontent, if_pos rfl, h.shown ha, Option.map_some, hf]
  · exact absurd ha (hn a)

/-- A holder that saves its session before it lets go of it leaves the map as it is. -/
theorem settle [DecidableEq χ] (h : m.Shows id ms) (hf : m.failing = []) (hw : (who, a) ∈ m.holds)
    (now : Nat) : ∃ m', m.saveIfActive a now = (m', .ok ()) ∧ m'.holds = m.holds ∧
      (m'.release who).Shows id ms := by
  have ha : m.Has a := .inr ⟨who, hw⟩
  obtain ⟨t, ht, hk⟩ := keeps [a] hf h.quiet now
  obtain ⟨t', ht', hsound⟩ := h.sound.saveAll hf (List.forall_mem_singleton.2 ⟨who, hw⟩) now
  obtain rfl : t = t' := congrArg (·.1.store) (ht.symm.trans ht')
  have hs : m.saveIfActive a now = ({ m with store := t }, .ok ()) := by
    rw [saveIfActive_eq hf]
    rw [saveAll, saveIfActive_eq hf] at ht
    exact ht
  have has {b : Handle} (hb : (({ m with store := t } : Manager χ).release who).Has b) : m.Has b := by
    rcases hb with hb | ⟨w, hb⟩
    · rcases hk.stored hb with hb | hb
      · exact .inl hb
      · exact List.mem_singleton.1 hb ▸ ha
    · exact .inr ⟨w, (List.mem_filter.1 hb).1⟩
  refine ⟨_, hs, rfl, hsound.release who, h.quiet.of_content? hk.content,
    fun hb => h.own (has hb), fun hb => ?_, fun hn => ?_⟩
  · exact (congrFun hk.content _).trans (h.shown (has hb))
  · by_contra hms
    -- A session with attributes has been saved, so that it is there whoever lets go of it.
    have hfilled : m.store.isFilled a = true := by
      obtain ⟨x, hx⟩ := h.get? ha
      rw [Store.isFilled, hx]
      simpa using hms
    have hid : id ∈ t.stored.map Handle.id := by
      rw [hk.saved]
      exact .inr (List.mem_map.2 ⟨a, by simp [hfilled], h.own ha⟩)
    obtain ⟨b, hb, -⟩ := List.mem_map.1 hid
    exact hn b (.inl hb)

end Shows

end Parley.Session.Manager
