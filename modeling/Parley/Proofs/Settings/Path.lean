import Parley.Proofs.Settings.Overlay

namespace Parley

namespace Json

variable {ms ms' : Members} {k : String} {v w : Json} {path : List String}

def at? (v : Json) : List String → Option Json
  | [] => some v
  | k :: path => (v.get? k).bind (·.at? path)

theorem at?_nil (v : Json) : v.at? [] = some v := rfl

theorem at?_obj (ms : Members) (k : String) (path : List String) :
    (obj ms).at? (k :: path) = (ms.lookup k).bind (·.at? path) := rfl

theorem at?_append (v : Json) (path rest : List String) :
    v.at? (path ++ rest) = (v.at? path).bind (·.at? rest) := by
  induction path generalizing v with
  | nil => rfl
  | cons k path ih =>
      rw [List.cons_append, at?, at?]
      cases v.get? k with
      | none => rfl
      | some w => exact ih w

theorem at?_cons_eq_some (h : v.at? (k :: path) = some w) :
    ∃ ms u, v = obj ms ∧ ms.lookup k = some u ∧ u.at? path = some w := by
  obtain ⟨u, hu, hw⟩ := Option.bind_eq_some_iff.1 h
  cases v with
  | obj ms => exact ⟨ms, u, rfl, hu, hw⟩
  | _ => cases hu

theorem ne_null_of_at? (h : v.at? path = some w) (hw : w ≠ null) : v ≠ null := by
  rintro rfl
  cases path with
  | nil =>
      cases h
      exact hw rfl
  | cons k path => cases h

theorem Ascending.ext (h : Ascending ms) (h' : Ascending ms')
    (hl : ∀ k, ms.lookup k = ms'.lookup k) : ms = ms' := by
  induction ms generalizing ms' with
  | nil =>
      cases ms' with
      | nil => rfl
      | cons m ms' =>
          have hm := hl m.1
          rw [show m = (m.1, m.2) from rfl, lookup_member, if_pos rfl] at hm
          cases hm
  | cons m ms ih =>
      obtain ⟨k, v⟩ := m
      have hk : ms'.lookup k = some v := by rw [← hl k, lookup_member, if_pos rfl]
      cases ms' with
      | nil => cases hk
      | cons m' ms' =>
          obtain ⟨k', v'⟩ := m'
          have hmem : ((k', v') : String × Json) ∈ (k, v) :: ms :=
            mem_of_lookup (by rw [hl k', lookup_member, if_pos rfl])
          have hmem' : ((k, v) : String × Json) ∈ (k', v') :: ms' := mem_of_lookup hk
          obtain ⟨ha, ht⟩ := List.pairwise_cons.1 h
          obtain ⟨ha', ht'⟩ := List.pairwise_cons.1 h'
          -- The first name of each list stands in the other one, so neither is before the other.
          have he : k = k' := by
            rcases List.mem_cons.1 hmem with he | hm
            · exact (Prod.mk.inj he).1.symm
            · rcases List.mem_cons.1 hmem' with he | hm'
              · exact (Prod.mk.inj he).1
              · exact absurd (Std.lt_trans (ha _ hm) (ha' _ hm')) Std.lt_irrefl
          subst he
          rw [lookup_member, if_pos rfl] at hk
          cases hk
          have htail (n : String) : ms.lookup n = ms'.lookup n := by
            by_cases hn : n = k
            · rw [hn, h.lookup_head, h'.lookup_head]
            · have hn' := hl n
              rwa [lookup_member, if_neg hn, lookup_member, if_neg hn] at hn'
          rw [ih ht ht' htail]

theorem Orderly.pair {l : String} (h : k < l) (hv : v.Orderly) (hw : w.Orderly) :
    (Json.obj [(k, v), (l, w)]).Orderly := by
  refine .obj (List.pairwise_pair.2 h) fun m hm => ?_
  rcases List.mem_cons.1 hm with rfl | hm
  · exact hv
  · rw [List.mem_singleton.1 hm]
    exact hw

end Json

namespace Settings

open Json (Members Ascending)

variable {base layer : Members} {k : String} {v w lower upper : Json} {path : List String}

theorem ascending_overlayMembers (h : Ascending base) (layer : Members) :
    Ascending (overlayMembers base layer) := by
  induction layer generalizing base with
  | nil => rwa [overlayMembers]
  | cons m layer ih =>
      obtain ⟨k, v⟩ := m
      cases hv : v.isNull with
      | true =>
          cases v with
          | null =>
              rw [overlayMembers]
              exact ih h
          | _ => cases hv
      | false =>
          rw [overlayMembers_cons hv]
          exact ih (Json.ascending_insert _ _ h)

theorem laid_absent {above : Option Json} (h : above = none ∨ above = some .null)
    (below : Option Json) : laid below above = below := by
  rcases h with rfl | rfl <;> rfl

theorem at?_overlay (hu : upper.Orderly) (hv : lower.at? path = some v)
    (hw : upper.at? path = some w) (hn : w ≠ .null) :
    (overlay lower upper).at? path = some (overlay v w) := by
  induction path generalizing lower upper with
  | nil =>
      cases hv
      cases hw
      rfl
  | cons k path ih =>
      obtain ⟨base, e, rfl, he, hv⟩ := Json.at?_cons_eq_some hv
      obtain ⟨layer, u, rfl, hk, hw⟩ := Json.at?_cons_eq_some hw
      rw [overlay_obj, Json.at?_obj, lookup_overlayMembers hu.ascending, he, hk,
        laid_of_ne (Json.ne_null_of_at? hw hn)]
      exact ih (hu.member (Json.mem_of_lookup hk)) hv hw

theorem at?_overlay_of_single (hu : upper.Orderly) (hv : upper.at? path = some v)
    (hs : Single v) : (overlay lower upper).at? path = some v := by
  induction path generalizing lower upper with
  | nil =>
      cases hv
      rw [overlay_of_not_obj hs.2, Json.at?_nil]
  | cons k path ih =>
      obtain ⟨layer, u, rfl, hk, hw⟩ := Json.at?_cons_eq_some hv
      by_cases hl : ∃ base, lower = .obj base
      · obtain ⟨base, rfl⟩ := hl
        rw [overlay_obj, Json.at?_obj, lookup_overlayMembers hu.ascending, hk,
          laid_of_ne (Json.ne_null_of_at? hw hs.1)]
        cases base.lookup k with
        | none => exact hw
        | some e => exact ih (hu.member (Json.mem_of_lookup hk)) hw
      · rwa [overlay_over fun base he => hl ⟨base, he⟩]

/-- What an object of the upper layer leaves out, or has a null for, stays as it is below. -/
theorem at?_overlay_of_absent (hu : upper.Orderly) (hl : lower.at? path = some (.obj base))
    (hp : upper.at? path = some (.obj layer)) (h : layer.lookup k = none ∨ layer.lookup k = some .null)
    (rest : List String) :
    (overlay lower upper).at? (path ++ k :: rest) = lower.at? (path ++ k :: rest) := by
  have hlayer : Ascending layer := by
    clear hl
    induction path generalizing upper with
    | nil =>
        cases hp
        exact hu.ascending
    | cons n path ih =>
        obtain ⟨ms, u, rfl, hm, hw⟩ := Json.at?_cons_eq_some hp
        exact ih (hu.member (Json.mem_of_lookup hm)) hw
  rw [Json.at?_append, Json.at?_append, at?_overlay hu hl hp (by simp), hl, Option.bind_some,
    Option.bind_some, overlay_obj, Json.at?_obj, Json.at?_obj, lookup_overlayMembers hlayer,
    laid_absent h]

theorem overlayMembers_again {members : Members} (ha : Ascending members) (hl : Ascending layer)
    (h : ∀ k, laid (members.lookup k) (layer.lookup k) = members.lookup k) :
    overlayMembers members layer = members :=
  (ascending_overlayMembers ha layer).ext ha fun k => by rw [lookup_overlayMembers hl, h]

theorem overlay_overlay (hl : lower.Orderly) (hu : upper.Orderly) :
    overlay (overlay lower upper) upper = overlay lower upper := by
  induction hu generalizing lower with
  | @obj layer ha hm ih =>
      -- A member is laid over itself, as over null, when it has come from the layer alone.
      have hself {k : String} {v : Json} (hv : layer.lookup k = some v) : overlay v v = v := by
        have hn : overlay .null v = v := overlay_over (by simp) v
        have h := ih (k, v) (Json.mem_of_lookup hv) .null
        rwa [hn] at h
      by_cases h : ∃ base, lower = .obj base
      · obtain ⟨base, rfl⟩ := h
        rw [overlay_obj, overlay_obj]
        congr 1
        refine overlayMembers_again (ascending_overlayMembers hl.ascending layer) ha fun k => ?_
        rw [lookup_overlayMembers ha]
        cases hk : layer.lookup k with
        | none => rfl
        | some v =>
            by_cases hv : v = .null
            · rw [hv, laid_absent (.inr rfl), laid_absent (.inr rfl)]
            · rw [laid_of_ne hv, laid_of_ne hv]
              cases hb : base.lookup k with
              | none => exact congrArg some (hself hk)
              | some e =>
                  exact congrArg some (ih (k, v) (Json.mem_of_lookup hk)
                    (hl.member (Json.mem_of_lookup hb)))
      · rw [overlay_over fun base he => h ⟨base, he⟩, overlay_obj]
        congr 1
        refine overlayMembers_again ha ha fun k => ?_
        cases hk : layer.lookup k with
        | none => rfl
        | some v =>
            by_cases hv : v = .null
            · rw [hv, laid_absent (.inr rfl)]
            · rw [laid_of_ne hv]
              exact congrArg some (hself hk)
  | _ => rw [overlay_of_not_obj (by simp), overlay_of_not_obj (by simp)]

/-- At any path, a single value of the upper layer is what the layers come to; a name that an object
of the upper layer leaves out, or has a null for, leads to what it leads to below, if there is an
object below as well; and a layer that is laid over its own result changes nothing. -/
theorem overlay_at_paths (hl : lower.Orderly) (hu : upper.Orderly) :
    (∀ path v, upper.at? path = some v → Single v → (overlay lower upper).at? path = some v) ∧
    (∀ path k rest base layer, lower.at? path = some (.obj base) →
      upper.at? path = some (.obj layer) → (layer.lookup k = none ∨ layer.lookup k = some .null) →
      (overlay lower upper).at? (path ++ k :: rest) = lower.at? (path ++ k :: rest)) ∧
    overlay (overlay lower upper) upper = overlay lower upper :=
  ⟨fun _ _ hv hs => at?_overlay_of_single hu hv hs,
    fun _ _ rest _ _ hb hp h => at?_overlay_of_absent hu hb hp h rest, overlay_overlay hl hu⟩

def fallback : Json := .obj [("log", .obj [("file", .str "a"), ("level", .int 1)]), ("port", .int 2)]

/-- It has a value for one name, a null for another one, and an object where there is none below. -/
def personal : Json :=
  .obj [("log", .obj [("file", .null), ("level", .int 3)]), ("port", .obj [("tcp", .null)])]

theorem overlay_at_paths_of_nested : fallback.Orderly ∧ personal.Orderly ∧
    (overlay fallback personal).at? ["log", "level"] = some (.int 3) ∧
    (overlay fallback personal).at? ["log", "file"] = some (.str "a") ∧
    overlay (overlay fallback personal) personal = overlay fallback personal := by
  have hf : fallback.Orderly :=
    .pair (by decide) (.pair (by decide) (.str "a") (.int 1)) (.int 2)
  have hp : personal.Orderly :=
    .pair (by decide) (.pair (by decide) .null (.int 3))
      (.obj (List.pairwise_singleton _ _) (List.forall_mem_singleton.2 .null))
  obtain ⟨hsingle, habsent, hagain⟩ := overlay_at_paths hf hp
  refine ⟨hf, hp, hsingle ["log", "level"] (.int 3) rfl ⟨by simp, by simp⟩, ?_, hagain⟩
  exact habsent ["log"] "file" [] _ _ rfl rfl (.inr rfl)

end Settings

end Parley
