import Parley.Proofs.Message.Written
import Mathlib.Data.List.Forall2

namespace Parley

open Json (Term Literal)

namespace Json.Term

def Named (ms : List (Literal × Term)) (ns : List (String × Term)) : Prop :=
  List.Forall₂ (fun m n => m.1.text? = some n.1 ∧ m.2 = n.2) ms ns

def Once (ns : List (String × Term)) (name : String) : Prop := (named name ns).length ≤ 1

/-- The fields `names` of a record: each under its name, once or not at all, or all in a row, from
which the last ones may be missing. -/
inductive Listed (names : List String) : Term → List (Option Term) → Prop
  | object {ms : List (Literal × Term)} {ns : List (String × Term)} (hn : Named ms ns)
      (h1 : ∀ name ∈ names, Once ns name) :
      Listed names (.object ms) (names.map fun name => ns.lookup name)
  | array {ts : List Term} (h : ts.length ≤ names.length) :
      Listed names (.array ts) (ts.map some ++ List.replicate (names.length - ts.length) none)

def Says {α : Type} (means : Term → α → Prop) (field : Option Term) : Option α → Prop
  | none => field = none ∨ field = some .null
  | some a => ∃ t, field = some t ∧ t ≠ .null ∧ means t a

variable {ms : List (Literal × Term)} {ns ns' : List (String × Term)} {name : String} {t : Term}

theorem named_cons (n : String × Term) :
    named name (n :: ns) = if n.1 = name then n.2 :: named name ns else named name ns := by
  by_cases h : n.1 = name <;> simp [named, h]

theorem mem_named : t ∈ named name ns ↔ (name, t) ∈ ns := by
  simp [named]

theorem lookup_eq (ns : List (String × Term)) (name : String) :
    ns.lookup name = (named name ns).head? := by
  induction ns with
  | nil => rfl
  | cons n ns ih =>
      obtain ⟨k, t⟩ := n
      rw [named_cons, List.lookup_cons]
      by_cases h : k = name
      · simp [h]
      · have hne : (name == k) = false := by simpa using Ne.symm h
        simp [h, hne, ih]

theorem named_eq (h : Once ns name) : named name ns = (ns.lookup name).toList := by
  rw [lookup_eq]
  unfold Once at h
  match hn : named name ns with
  | [] => rfl
  | [t] => rfl
  | t :: t' :: ts => simp [hn] at h

theorem mem_iff_lookup (h : Once ns name) : (name, t) ∈ ns ↔ ns.lookup name = some t := by
  rw [← mem_named, named_eq h, Option.mem_toList]

/-- The terms under a name are among those that a filter keeps, if it keeps the name. -/
theorem named_filter {keep : List String} (h : name ∈ keep) :
    named name (ns.filter fun n => n.1 ∈ keep) = named name ns := by
  unfold named
  rw [List.filter_filter]
  congr 1
  apply List.filter_congr
  intro n _
  by_cases hn : n.1 = name
  · simp [hn, h]
  · simp [hn]

/-- Neither the order of the members nor those with other names matter to a name. -/
theorem named_perm {keep : List String} (hk : name ∈ keep) (h1 : Once ns name)
    (hp : (ns'.filter fun n => n.1 ∈ keep).Perm (ns.filter fun n => n.1 ∈ keep)) :
    named name ns' = named name ns := by
  have hn : (named name (ns'.filter fun n => n.1 ∈ keep)).Perm
      (named name (ns.filter fun n => n.1 ∈ keep)) := (hp.filter _).map _
  rw [named_filter hk, named_filter hk] at hn
  have he := named_eq h1
  cases hl : ns.lookup name with
  | none =>
      rw [hl] at he
      rw [he] at hn ⊢
      exact hn.eq_nil
  | some t =>
      rw [hl] at he
      rw [he] at hn ⊢
      exact List.perm_singleton.1 hn

theorem mapM_text? : (ms.mapM fun (k, t) => k.text?.map (·, t)) = some ns ↔ Named ms ns := by
  induction ms generalizing ns with
  | nil => cases ns <;> simp [Named]
  | cons m ms ih =>
      obtain ⟨k, t⟩ := m
      rw [List.mapM_cons]
      simp only [Option.bind_eq_bind, Option.bind_eq_some_iff, Option.map_eq_some_iff, ih]
      constructor
      · rintro ⟨n, ⟨name, hk, rfl⟩, ms', hm, he⟩
        cases he
        exact .cons ⟨hk, rfl⟩ hm
      · intro h
        cases h with
        | @cons _ n _ ms' hn hm => exact ⟨n, ⟨n.1, hn.1, Prod.ext rfl hn.2⟩, ms', hm, rfl⟩

theorem lookups_eq_some {names : List String} {fs : List (Option Term)} :
    (names.mapM fun name =>
      match named name ns with
      | [] => some none
      | [t] => some (some t)
      | _ => none) = some fs ↔
      (∀ name ∈ names, Once ns name) ∧ fs = names.map fun name => ns.lookup name := by
  induction names generalizing fs with
  | nil =>
      rw [List.mapM_nil]
      simp only [Option.pure_def, Option.some.injEq, List.not_mem_nil, false_imp_iff, implies_true,
        List.map_nil, true_and]
      exact eq_comm
  | cons name names ih =>
      rw [List.mapM_cons]
      simp only [Option.bind_eq_bind, Option.bind_eq_some_iff, ih, List.forall_mem_cons, lookup_eq,
        List.map_cons, Once]
      constructor
      · rintro ⟨f, hf, fs', ⟨h1, rfl⟩, he⟩
        cases he
        split at hf <;> cases hf
        · next hn => exact ⟨⟨by simp [hn], h1⟩, by simp [hn]⟩
        · next hn => exact ⟨⟨by simp [hn], h1⟩, by simp [hn]⟩
      · rintro ⟨⟨h, h1⟩, rfl⟩
        refine ⟨(named name ns).head?, ?_, _, ⟨h1, rfl⟩, rfl⟩
        match hn : named name ns with
        | [] => rfl
        | [t] => rfl
        | t :: t' :: ts => simp [hn] at h

theorem fields?_eq_some {names : List String} {fs : List (Option Term)} :
    fields? names t = some fs ↔ Listed names t fs := by
  cases t with
  | object ms =>
      rw [fields?, Option.bind_eq_bind, Option.bind_eq_some_iff]
      constructor
      · rintro ⟨ns, hn, hf⟩
        obtain ⟨h1, rfl⟩ := lookups_eq_some.1 hf
        exact .object (mapM_text?.1 hn) h1
      · rintro (⟨hn, h1⟩ | _)
        exact ⟨_, mapM_text?.2 hn, lookups_eq_some.2 ⟨h1, rfl⟩⟩
  | array ts =>
      rw [fields?]
      constructor
      · intro h
        split at h
        · next hl =>
          cases h
          exact .array hl
        · cases h
      · rintro (_ | h)
        exact if_pos h
  | null | bool | number | string => exact ⟨fun h => (by cases h), fun h => (by cases h)⟩

theorem toJson?_number {n : Numeral} {v : Json} (h : n.toJson? = some v) :
    (∃ k, v = .int k) ∨ ∃ x, v = .float x := by
  simp only [Numeral.toJson?] at h
  split at h
  · exact .inl ⟨_, (Option.some.inj h).symm⟩
  · split at h
    · exact .inl ⟨_, (Option.some.inj h).symm⟩
    · obtain ⟨x, -, rfl⟩ := Option.map_eq_some_iff.1 h
      exact .inr ⟨x, rfl⟩

theorem string?_eq_some {d : Nat} {s : String} :
    t.string? = some s ↔ t.toJson? d = some (.str s) := by
  cases t with
  | string l => simp [string?, toJson?]
  | number n =>
      refine ⟨fun h => (by cases h), fun h => ?_⟩
      rcases toJson?_number h with ⟨_, h⟩ | ⟨_, h⟩ <;> cases h
  | null | bool | array | object => simp [string?, toJson?, Json.ofMembers]

theorem integer?_eq_some {d : Nat} {n : Int} :
    t.integer? = some n ↔ t.toJson? d = some (.int n) ∧ RequestId.inRange n := by
  cases t with
  | number x =>
      rw [integer?, toJson?]
      split
      · next k hk =>
        rw [hk]
        by_cases hr : RequestId.inRange k <;> simp [hr]
        · exact fun h => h ▸ hr
        · rintro rfl
          simpa using hr
      · next hn => exact ⟨fun h => (by cases h), fun h => absurd h.1 (hn n)⟩
  | null | bool | string | array | object => simp [integer?, toJson?, Json.ofMembers]

theorem optional_eq_some {α : Type} {read : Term → Option α} {f : Option Term} {o : Option α} :
    optional read f = some o ↔ Says (fun t a => read t = some a) f o := by
  unfold optional
  split
  · cases o <;> simp [Says]
  · cases o <;> simp [Says]
  · next t hn =>
    have ht : t ≠ .null := fun h => hn (h ▸ rfl)
    cases o <;> simp [Says, ht]

theorem exists_said {α : Type} {means : Term → α → Prop} {f : Option Term} :
    (∃ o, Says means f o) ↔ ∀ t, f = some t → t = .null ∨ ∃ a, means t a := by
  constructor
  · rintro ⟨_ | a, h⟩ t rfl
    · exact .inl (by simpa [Says] using h)
    · obtain ⟨_, ht, -, ha⟩ := h
      cases ht
      exact .inr ⟨a, ha⟩
  · intro h
    cases f with
    | none => exact ⟨none, .inl rfl⟩
    | some t =>
        by_cases hn : t = .null
        · exact ⟨none, .inr (congrArg some hn)⟩
        · obtain hn' | ⟨a, ha⟩ := h t rfl
          · exact absurd hn' hn
          · exact ⟨some a, t, rfl, hn, ha⟩

theorem says_isSome {α : Type} {means : Term → α → Prop} {f : Option Term} {o : Option α}
    (h : Says means f o) : o.isSome ↔ ∃ t, f = some t ∧ t ≠ .null := by
  cases o with
  | none => rcases h with rfl | rfl <;> simp
  | some a =>
      obtain ⟨t, rfl, hn, -⟩ := h
      simpa using hn

end Json.Term

namespace RequestId

theorem ofJson?_eq_some {v : Json} {i : RequestId} :
    ofJson? v = some i ↔ i.Fits ∧ v = i.toJson := by
  constructor
  · intro h
    refine ⟨fits_of_ofJson? h, ?_⟩
    unfold ofJson? at h
    split at h
    · split at h
      · cases h
        rfl
      · cases h
    · cases h
      rfl
    · cases h
  · rintro ⟨hi, rfl⟩
    exact ofJson?_toJson hi

end RequestId

namespace ErrorBody

def Spelled (depth : Nat) (t : Term) (b : ErrorBody) : Prop :=
  ∃ code message data, Term.Listed ["code", "message", "data"] t [some code, some message, data] ∧
    code.toJson? depth = some (.int b.code) ∧ RequestId.inRange b.code ∧
    message.toJson? depth = some (.str b.message) ∧
    Term.Says (fun t v => t.toJson? depth = some v) data b.data

theorem ofTerm?_eq_some {depth : Nat} {t : Term} {b : ErrorBody} :
    ofTerm? (depth + 1) t = some b ↔ Spelled depth t b := by
  constructor
  · intro h
    obtain ⟨fs, hf, h⟩ := Option.bind_eq_some_iff.1 h
    split at h
    · next code message data =>
      obtain ⟨n, hn, h⟩ := Option.bind_eq_some_iff.1 h
      obtain ⟨s, hs, h⟩ := Option.bind_eq_some_iff.1 h
      obtain ⟨v, hv, h⟩ := Option.bind_eq_some_iff.1 h
      cases h
      obtain ⟨hn, hr⟩ := Term.integer?_eq_some.1 hn
      exact ⟨code, message, data, Term.fields?_eq_some.1 hf, hn, hr, Term.string?_eq_some.1 hs,
        Term.optional_eq_some.1 hv⟩
    · cases h
  · rintro ⟨code, message, data, hf, hn, hr, hs, hv⟩
    have hn := Term.integer?_eq_some.2 ⟨hn, hr⟩
    have hs := Term.string?_eq_some.2 hs
    have hv := Term.optional_eq_some.2 hv
    simp only [ofTerm?, Term.fields?_eq_some.2 hf, hn, hs, Nat.add_sub_cancel, hv,
      Option.bind_eq_bind, Option.bind_some]

end ErrorBody

end Parley
