import Parley.Proofs.InFlight.Entry

namespace Parley.InFlight

open Parley.Flow (Token)

variable {κ : Type}

structure Office (κ : Type) where
  registry : InFlight κ := {}
  tickets : List (Ticket κ) := []

inductive Act (κ : Type)
  | begin (c : ConnectionId) (id : RequestId) (token : Token κ)
  | claim (t : Ticket κ)
  | release (t : Ticket κ)
  | cancel (c : ConnectionId) (id : RequestId)
  | remove (c : ConnectionId) (id : RequestId)
  | cancelConnection (c : ConnectionId)
  | fire (name : κ)

namespace Act

def Held (o : Office κ) : Act κ → Prop
  | claim t | release t => t ∈ o.tickets
  | _ => True

def Frees (t : Ticket κ) : Act κ → Prop
  | release u => u = t
  | cancel c id | remove c id => t.connection = c ∧ t.id = id
  | cancelConnection c => t.connection = c
  | _ => False

end Act

namespace Office

variable {o o' : Office κ} {a : Act κ} {acts : List (Act κ)} {t : Ticket κ} {r : InFlight κ}
  {c : ConnectionId} {id : RequestId} {token : Token κ}

def perform (o : Office κ) : Act κ → Office κ
  | .begin c id token =>
    match o.registry.begin? c id token with
    | some (registry, t) => ⟨registry, o.tickets ++ [t]⟩
    | none => o
  | .claim t => { o with registry := (o.registry.claim t).1 }
  | .release t => { o with registry := (o.registry.release t).1 }
  | .cancel c id => { o with registry := (o.registry.cancel c id).1 }
  | .remove c id => { o with registry := (o.registry.remove c id).1 }
  | .cancelConnection c => { o with registry := (o.registry.cancelConnection c).1 }
  | .fire name => { o with registry := o.registry.fire name }

inductive Runs (o : Office κ) : List (Act κ) → Office κ → Prop
  | refl : Runs o [] o
  | step {acts : List (Act κ)} {o' : Office κ} {a : Act κ} :
      Runs o acts o' → a.Held o' → Runs o (acts ++ [a]) (o'.perform a)

def Reachable (o : Office κ) : Prop := ∃ acts, Runs {} acts o

/-- Every request in flight is the one of a ticket, and tickets are told apart by their serial
numbers. -/
structure Sound (o : Office κ) : Prop where
  keyed : o.registry.Keyed
  held : ∀ t ∈ o.registry.entries, t ∈ o.tickets
  serial : ∀ t ∈ o.tickets, t.serial < o.registry.issued.count t.connection
  apart : ∀ t ∈ o.tickets, ∀ u ∈ o.tickets, t.connection = u.connection → t.serial = u.serial →
    t = u

namespace Sound

theorem empty : Sound ({} : Office κ) := ⟨nofun, nofun, nofun, nofun⟩

theorem fewer (h : o.Sound) (hk : r.Keyed) (he : ∀ t ∈ r.entries, t ∈ o.registry.entries)
    (hi : r.issued = o.registry.issued) : Sound { o with registry := r } :=
  ⟨hk, fun t ht => h.held t (he t ht), fun t ht => hi ▸ h.serial t ht, h.apart⟩

theorem begin? (h : o.Sound) (hb : o.registry.begin? c id token = some (r, t)) :
    Sound { o with registry := r, tickets := o.tickets ++ [t] } := by
  have hk := h.keyed.begin? hb
  obtain ⟨-, ht, rfl⟩ := begin?_eq_some.1 hb
  have hfresh {u : Ticket κ} (hu : u ∈ o.tickets) : ¬(u.connection = t.connection ∧
      u.serial = t.serial) := by
    subst ht
    rintro ⟨rfl, hs⟩
    exact Nat.lt_irrefl _ (Nat.lt_of_le_of_lt (Nat.le_of_eq hs.symm) (h.serial u hu))
  refine ⟨hk, fun u hu => ?_, fun u hu => ?_, fun u hu v hv hc hs => ?_⟩
  · rcases List.mem_append.1 hu with hu | hu
    · exact List.mem_append_left _ (h.held u hu)
    · exact List.mem_append_right _ hu
  · rw [List.count_append]
    rcases List.mem_append.1 hu with hu | hu
    · exact Nat.lt_add_right _ (h.serial u hu)
    · rw [List.mem_singleton.1 hu, ht]
      simp
  · rcases List.mem_append.1 hu with hu | hu <;> rcases List.mem_append.1 hv with hv | hv
    · exact h.apart u hu v hv hc hs
    · rw [List.mem_singleton.1 hv] at hc hs
      exact absurd ⟨hc, hs⟩ (hfresh hu)
    · rw [List.mem_singleton.1 hu] at hc hs
      exact absurd ⟨hc.symm, hs.symm⟩ (hfresh hv)
    · rw [List.mem_singleton.1 hu, List.mem_singleton.1 hv]

theorem perform (h : o.Sound) (a : Act κ) : (o.perform a).Sound := by
  cases a with
  | begin c id token =>
      rw [Office.perform]
      split
      · next hb => exact h.begin? hb
      · exact h
  | claim t => exact h.fewer h.keyed.claim (fun u => mem_entries_claim.1) issued_claim
  | release t =>
      exact h.fewer h.keyed.release
        (fun u hu => ((InFlight.mem_entries_release h.keyed).1 hu).1) issued_release
  | cancel c id =>
      exact h.fewer h.keyed.cancel (fun u hu => (mem_entries_cancel.1 hu).1) issued_cancel
  | remove c id =>
      exact h.fewer h.keyed.erase (fun u hu => (mem_entries_erase.1 hu).1) rfl
  | cancelConnection c =>
      exact h.fewer h.keyed.cancelConnection (fun u hu => (mem_entries_cancelConnection.1 hu).1)
        (by rw [cancelConnection_eq])
  | fire name => exact h.fewer h.keyed (fun u => id) rfl

theorem mem_entries_release (h : o.Sound) (ht : t ∈ o.tickets) {u : Ticket κ} :
    u ∈ (o.registry.release t).1.entries ↔ u ∈ o.registry.entries ∧ u ≠ t := by
  refine (InFlight.mem_entries_release h.keyed).trans
    (and_congr_right fun hu => not_congr ⟨fun ⟨hc, _, hs⟩ => ?_, ?_⟩)
  · exact h.apart u (h.held u hu) t ht hc hs
  · rintro rfl
    exact ⟨rfl, rfl, rfl⟩

theorem mem_perform (h : o.Sound) (ha : a.Held o) (ht : t ∈ o.tickets) :
    t ∈ (o.perform a).registry.entries ↔ t ∈ o.registry.entries ∧ ¬a.Frees t := by
  cases a with
  | begin c x token =>
      refine Iff.trans ?_ (and_iff_left not_false).symm
      rw [Office.perform]
      split
      · next r u hb =>
        obtain ⟨-, hu, rfl⟩ := begin?_eq_some.1 hb
        have hne : t ≠ u := by
          rintro rfl
          have hs := h.serial t ht
          rw [hu] at hs
          exact Nat.lt_irrefl _ hs
        simp [hne]
      · rfl
  | claim u => exact mem_entries_claim.trans (and_iff_left not_false).symm
  | release u =>
      exact (h.mem_entries_release ha).trans (and_congr_right fun _ => not_congr eq_comm)
  | cancel c id => exact mem_entries_cancel
  | remove c id => exact mem_entries_erase
  | cancelConnection c => exact mem_entries_cancelConnection
  | fire name => exact (and_iff_left not_false).symm

end Sound

theorem subset_perform (o : Office κ) (a : Act κ) : o.tickets ⊆ (o.perform a).tickets := by
  cases a with
  | begin c id token =>
      rw [perform]
      split
      · exact List.subset_append_left _ _
      · exact List.Subset.refl _
  | _ => exact List.Subset.refl _

theorem Runs.sound (h : Runs o acts o') (ho : o.Sound) : o'.Sound := by
  induction h with
  | refl => exact ho
  | step _ _ ih => exact ih.perform _

theorem Reachable.sound (h : o.Reachable) : o.Sound :=
  have ⟨_, h⟩ := h
  h.sound .empty

theorem Runs.subset (h : Runs o acts o') : o.tickets ⊆ o'.tickets := by
  induction h with
  | refl => exact List.Subset.refl _
  | step _ _ ih => exact List.Subset.trans ih (subset_perform _ _)

theorem Runs.mem_entries (h : Runs o acts o') (ho : o.Sound) (ht : t ∈ o.registry.entries) :
    t ∈ o'.registry.entries ↔ ∀ a ∈ acts, ¬a.Frees t := by
  induction h with
  | refl => exact iff_of_true ht nofun
  | step hr ha ih =>
      rw [(hr.sound ho).mem_perform ha (hr.subset (ho.held t ht)), ih, List.forall_mem_append,
        List.forall_mem_singleton]

/-- A cancellation that does not succeed claims nothing and fires nothing. Of the entries it takes
the one of a claimed request, where it finds that, and leaves all others. So a request stays in
flight, and keeps its id from any other one, until it is released or what is there under its
connection and id is removed or cancelled, and no longer. -/
theorem Reachable.cancel_late (h : o.Reachable) :
    (∀ c id r, o.registry.cancel c id = (r, false) →
      r.claimed = o.registry.claimed ∧ r.fired = o.registry.fired ∧ r.issued = o.registry.issued ∧
      (o.registry.lookup c id = none ∧ r = o.registry ∨
        ∃ t, o.registry.lookup c id = some t ∧ o.registry.isClaimed t ∧
          ∀ u, u ∈ r.entries ↔ u ∈ o.registry.entries ∧ u ≠ t)) ∧
    ∀ t ∈ o.registry.entries, ∀ acts o', Runs o acts o' →
      (t ∈ o'.registry.entries ↔ ∀ a ∈ acts, ¬a.Frees t) ∧
      (t ∈ o'.registry.entries → ∀ token,
        o'.registry.begin? t.connection t.id token = none) := by
  have ho := h.sound
  refine ⟨fun c id r hc => ?_, fun t ht acts o' hr => ⟨hr.mem_entries ho ht, fun ht' token => ?_⟩⟩
  · rcases cancel_eq_false hc with ⟨hn, rfl⟩ | ⟨t, hl, hclaimed, rfl⟩
    · exact ⟨rfl, rfl, rfl, .inl ⟨hn, rfl⟩⟩
    · refine ⟨rfl, rfl, rfl, .inr ⟨t, hl, hclaimed, fun u => ?_⟩⟩
      obtain ⟨ht, rfl, rfl⟩ := lookup_some hl
      rw [mem_entries_erase]
      refine and_congr_right fun hu => not_congr ⟨fun hk => ho.keyed.eq hu ht hk.1 hk.2, ?_⟩
      rintro rfl
      exact ⟨rfl, rfl⟩
  · rw [begin?_eq_none, (hr.sound ho).keyed t ht']
    rfl

def first : Ticket Nat := ⟨⟨"c"⟩, .number 1, 0, ⟨0, []⟩⟩

def answering : Office Nat :=
  (perform {} (.begin first.connection first.id first.token)).perform (.claim first)

theorem reachable_answering : answering.Reachable :=
  ⟨_, .step (.step .refl trivial) (show first ∈ Office.tickets _ by decide)⟩

/-- A late cancellation takes no other entry, and one of another id leaves the id of the request
as it is. -/
theorem cancel_late_of_answering :
    (∀ u, u ∈ (answering.registry.cancel first.connection first.id).1.entries ↔
      u ∈ answering.registry.entries ∧ u ≠ first) ∧
    first ∈ (answering.perform (.cancel first.connection (.number 2))).registry.entries ∧
    (answering.perform (.cancel first.connection (.number 2))).registry.begin? first.connection
      first.id ⟨1, []⟩ = none := by
  obtain ⟨hlate, hstays⟩ := reachable_answering.cancel_late
  obtain ⟨hstay, hkept⟩ := hstays first (by decide) _ _
    (.step .refl (a := .cancel first.connection (.number 2)) trivial)
  have hmem := hstay.2 (List.forall_mem_singleton.2 fun h => absurd h.2 (by decide))
  refine ⟨?_, hmem, hkept hmem _⟩
  obtain ⟨-, -, -, ⟨hn, -⟩ | ⟨t, ht, -, hentries⟩⟩ :=
    hlate first.connection first.id _ (Prod.ext rfl rfl)
  · cases hn
  · cases ht
    exact hentries

theorem freed_while_answering :
    answering.Reachable ∧
    (answering.registry.cancel first.connection first.id).2 = false ∧
    first ∈ answering.registry.entries ∧
    first ∉ (answering.registry.cancel first.connection first.id).1.entries ∧
    ((answering.registry.cancel first.connection first.id).1.begin? first.connection first.id
      ⟨1, []⟩).isSome :=
  ⟨reachable_answering, by decide, by decide, by decide, by decide⟩

end Office

end Parley.InFlight
