import Parley.Proofs.Message.Listed
import Parley.Proofs.Text.Utf8
import Mathlib.Logic.Basic

namespace Parley

open Json (Term Literal)

namespace Envelope

inductive Field
  | version
  | id
  | method
  | params
  | result
  | error

namespace Field

def name : Field → String
  | version => "jsonrpc"
  | id => "id"
  | method => "method"
  | params => "params"
  | result => "result"
  | error => "error"

theorem name_mem (f : Field) : f.name ∈ names := by
  cases f <;> decide

theorem name_mem_tail {f : Field} (h : f ≠ .version) : f.name ∈ names.tail := by
  cases f with
  | version => exact absurd rfl h
  | _ => decide

end Field

def Means (t : Term) (v : Json) : Prop := t.toJson? (Json.maxDepth - 1) = some v

def Reports (t : Term) (b : ErrorBody) : Prop := ErrorBody.Spelled (Json.maxDepth - 2) t b

def Field.Admits : Field → Term → Prop
  | version, t | method, t => t = .null ∨ ∃ s, Means t (.str s)
  | id, t => t = .null ∨ ∃ i : RequestId, i.Fits ∧ Means t i.toJson
  | params, t | result, t => ∃ v, Means t v
  | error, t => t = .null ∨ ∃ b, Reports t b

structure Declares (ns : List (String × Term)) (e : Envelope) : Prop where
  version : Term.Says (fun t s => Means t (.str s)) (ns.lookup "jsonrpc") e.version
  id : Term.Says (fun t (i : RequestId) => i.Fits ∧ Means t i.toJson) (ns.lookup "id") e.id
  method : Term.Says (fun t s => Means t (.str s)) (ns.lookup "method") e.method
  params : Term.Says Means (ns.lookup "params") e.params
  result : Option.Rel Means (ns.lookup "result") e.result
  error : Term.Says Reports (ns.lookup "error") e.error

variable {ms : List (Literal × Term)} {ns : List (String × Term)} {e : Envelope}

theorem fields?_object (hn : Term.Named ms ns) (h1 : ∀ f : Field, Term.Once ns f.name) :
    (Term.object ms).fields? names = some (names.map fun name => ns.lookup name) := by
  apply Term.fields?_eq_some.2
  apply Term.Listed.object hn
  intro name hm
  simp only [List.mem_cons, List.not_mem_nil, or_false] at hm
  rcases hm with rfl | rfl | rfl | rfl | rfl | rfl
  exacts [h1 .version, h1 .id, h1 .method, h1 .params, h1 .result, h1 .error]

theorem says_text {f : Option Term} {o : Option String} :
    Term.optional Term.string? f = some o ↔ Term.Says (fun t s => Means t (.str s)) f o := by
  simp only [Term.optional_eq_some, Term.string?_eq_some (d := Json.maxDepth - 1), Means]

theorem says_id {f : Option Term} {o : Option RequestId} :
    Term.optional (fun t => (t.toJson? (Json.maxDepth - 1)).bind RequestId.ofJson?) f = some o ↔
      Term.Says (fun t (i : RequestId) => i.Fits ∧ Means t i.toJson) f o := by
  have h (t : Term) (i : RequestId) :
      (t.toJson? (Json.maxDepth - 1)).bind RequestId.ofJson? = some i ↔
        i.Fits ∧ Means t i.toJson := by
    simp only [Option.bind_eq_some_iff, RequestId.ofJson?_eq_some]
    constructor
    · rintro ⟨_, ht, hi, rfl⟩
      exact ⟨hi, ht⟩
    · rintro ⟨hi, ht⟩
      exact ⟨_, ht, hi, rfl⟩
  simp only [Term.optional_eq_some, h]

theorem says_error {f : Option Term} {o : Option ErrorBody} :
    Term.optional (ErrorBody.ofTerm? (Json.maxDepth - 1)) f = some o ↔ Term.Says Reports f o := by
  have h (t : Term) (b : ErrorBody) :
      ErrorBody.ofTerm? (Json.maxDepth - 1) t = some b ↔ Reports t b := ErrorBody.ofTerm?_eq_some
  simp only [Term.optional_eq_some, h]

theorem ofTerm?_eq_some (hn : Term.Named ms ns) (h1 : ∀ f : Field, Term.Once ns f.name) :
    ofTerm? (.object ms) = some e ↔ Declares ns e := by
  have hf := fields?_object hn h1
  simp only [names, List.map_cons, List.map_nil] at hf
  simp only [ofTerm?, hf, Option.bind_eq_bind, Option.bind_some]
  constructor
  · intro h
    obtain ⟨version, hv, h⟩ := Option.bind_eq_some_iff.1 h
    obtain ⟨id, hi, h⟩ := Option.bind_eq_some_iff.1 h
    obtain ⟨method, hm, h⟩ := Option.bind_eq_some_iff.1 h
    obtain ⟨params, hp, h⟩ := Option.bind_eq_some_iff.1 h
    cases hr : ns.lookup "result" with
    | none =>
        simp only [hr] at h
        obtain ⟨error, he, h⟩ := Option.bind_eq_some_iff.1 h
        cases h
        exact ⟨says_text.1 hv, says_id.1 hi, says_text.1 hm, Term.optional_eq_some.1 hp,
          hr ▸ .none, says_error.1 he⟩
    | some t =>
        simp only [hr] at h
        obtain ⟨result, hv', h⟩ := Option.bind_eq_some_iff.1 h
        obtain ⟨error, he, h⟩ := Option.bind_eq_some_iff.1 h
        obtain ⟨v, ht, rfl⟩ := Option.map_eq_some_iff.1 hv'
        cases h
        exact ⟨says_text.1 hv, says_id.1 hi, says_text.1 hm, Term.optional_eq_some.1 hp,
          hr ▸ .some ht, says_error.1 he⟩
  · rintro ⟨hv, hi, hm, hp, hr, he⟩
    rw [says_text.2 hv, says_id.2 hi, says_text.2 hm, Term.optional_eq_some.2 hp,
      says_error.2 he]
    generalize ns.lookup "result" = result at hr
    obtain ⟨version, id, method, params, o, error⟩ := e
    cases hr with
    | none => rfl
    | some ht =>
        simp only [Means] at ht
        simp only [ht, Option.map_some, Option.bind_some]

theorem exists_declares :
    (∃ e, Declares ns e) ↔ ∀ (f : Field) (t : Term), ns.lookup f.name = some t → f.Admits t := by
  constructor
  · rintro ⟨e, h⟩ f t ht
    cases f with
    | version => exact Term.exists_said.1 ⟨_, h.version⟩ t ht
    | id => exact Term.exists_said.1 ⟨_, h.id⟩ t ht
    | method => exact Term.exists_said.1 ⟨_, h.method⟩ t ht
    | params =>
        obtain rfl | hv := Term.exists_said.1 ⟨_, h.params⟩ t ht
        · exact ⟨.null, rfl⟩
        · exact hv
    | result =>
        have hr := h.result
        rw [show ns.lookup "result" = some t from ht] at hr
        generalize e.result = o at hr
        cases hr with
        | some hv => exact ⟨_, hv⟩
    | error => exact Term.exists_said.1 ⟨_, h.error⟩ t ht
  · intro h
    obtain ⟨version, hv⟩ := Term.exists_said.2 (h .version)
    obtain ⟨id, hi⟩ := Term.exists_said.2 (h .id)
    obtain ⟨method, hm⟩ := Term.exists_said.2 (h .method)
    obtain ⟨params, hp⟩ := Term.exists_said.2 fun t ht => .inr (h .params t ht)
    obtain ⟨error, he⟩ := Term.exists_said.2 (h .error)
    obtain ⟨result, hr⟩ : ∃ o, Option.Rel Means (ns.lookup "result") o := by
      cases ht : ns.lookup "result" with
      | none => exact ⟨none, .none⟩
      | some t =>
          obtain ⟨v, hv⟩ := h .result t ht
          exact ⟨some v, .some hv⟩
    exact ⟨⟨version, id, method, params, result, error⟩, hv, hi, hm, hp, hr, he⟩

end Envelope

end Parley
