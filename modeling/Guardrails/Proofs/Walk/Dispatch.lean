import Mathlib.Tactic.SplitIfs
import Guardrails.Checker.Walk

/-!
# Dispatch tables, entry by entry

The subscribers of a kind are the checkers that list it, each once and in the order of their numbers.
-/

namespace Guardrails.Dispatch

/-- The numbers with one more behind them, unless it is among them. -/
def addNumber (number : Nat) (numbers : List Nat) : List Nat :=
  if number ∈ numbers then numbers else numbers ++ [number]

theorem addNumber_addNumber (number : Nat) (numbers : List Nat) :
    addNumber number (addNumber number numbers) = addNumber number numbers := by
  unfold addNumber
  split_ifs <;> simp_all

theorem addNumber_of_lt {number : Nat} {numbers : List Nat} (h : ∀ n ∈ numbers, n < number) :
    addNumber number numbers = numbers ++ [number] := by
  rw [addNumber, if_neg]
  intro hmem
  exact Nat.lt_irrefl number (h number hmem)

theorem subscribersIn_subscribeIn (kind k : String) (number : Nat)
    (entries : List (String × List Nat)) :
    subscribersIn k (subscribeIn kind number entries) =
      if kind = k then addNumber number (subscribersIn k entries) else subscribersIn k entries := by
  induction entries with
  | nil => by_cases h : kind = k <;> simp [subscribeIn, subscribersIn, addNumber, h]
  | cons entry rest ih =>
    obtain ⟨k', numbers⟩ := entry
    rw [subscribeIn]
    by_cases hk : k' = kind
    · subst hk
      by_cases h : k' = k <;> simp [subscribersIn, addNumber, h]
    · rw [if_neg hk, subscribersIn, subscribersIn, ih]
      by_cases h : k' = k
      · subst h
        rw [if_pos rfl, if_neg fun h => hk h.symm, if_pos rfl]
      · rw [if_neg h, if_neg h]

theorem subscribers_subscribe (d : Dispatch) (kind k : String) (number : Nat) :
    (d.subscribe kind number).subscribers k =
      if kind = k then addNumber number (d.subscribers k) else d.subscribers k :=
  subscribersIn_subscribeIn kind k number d.entries

theorem subscribers_foldl_subscribe (d : Dispatch) (k : String) (number : Nat) (kinds : List String) :
    (kinds.foldl (fun d kind => d.subscribe kind number) d).subscribers k =
      if k ∈ kinds then addNumber number (d.subscribers k) else d.subscribers k := by
  induction kinds generalizing d with
  | nil => simp
  | cons kind kinds ih =>
    rw [List.foldl_cons, ih, subscribers_subscribe]
    by_cases h : kind = k
    · subst h
      simp [addNumber_addNumber]
    · have : k ≠ kind := fun h' => h h'.symm
      simp [h, this]

/-- The numbers, from `number` on, of the checkers that list a kind. -/
def listing (kind : String) (number : Nat) (cs : List Checker) : List Nat :=
  ((cs.zipIdx number).filter fun c => decide (kind ∈ c.1.kinds)).map (·.2)

theorem listing_cons (kind : String) (number : Nat) (c : Checker) (cs : List Checker) :
    listing kind number (c :: cs) =
      (if kind ∈ c.kinds then [number] else []) ++ listing kind (number + 1) cs := by
  by_cases h : kind ∈ c.kinds <;> simp [listing, h]

theorem subscribers_subscribeAll (d : Dispatch) (kind : String) (number : Nat) (cs : List Checker)
    (h : ∀ n ∈ d.subscribers kind, n < number) :
    (subscribeAll d number cs).subscribers kind = d.subscribers kind ++ listing kind number cs := by
  induction cs generalizing d number with
  | nil => simp [subscribeAll, listing]
  | cons c cs ih =>
    have hstep : (c.kinds.foldl (fun d kind => d.subscribe kind number) d).subscribers kind =
        d.subscribers kind ++ if kind ∈ c.kinds then [number] else [] := by
      rw [subscribers_foldl_subscribe]
      split_ifs
      · exact addNumber_of_lt h
      · rw [List.append_nil]
    rw [subscribeAll, ih, hstep, listing_cons, List.append_assoc]
    intro n hn
    rw [hstep, List.mem_append] at hn
    rcases hn with hn | hn
    · exact Nat.lt_succ_of_lt (h n hn)
    · split_ifs at hn
      · rw [List.mem_singleton.1 hn]
        exact Nat.lt_succ_self number
      · simp at hn

theorem subscribers_ofCheckers (cs : List Checker) (kind : String) :
    (ofCheckers cs).subscribers kind = listing kind 0 cs := by
  rw [ofCheckers, subscribers_subscribeAll _ _ _ _ (by simp [subscribers, subscribersIn])]
  simp [subscribers, subscribersIn]

theorem pairwise_listing (kind : String) (number : Nat) (cs : List Checker) :
    (listing kind number cs).Pairwise (· < ·) := by
  have hnumbers : (listing kind number cs).Sublist ((cs.zipIdx number).map (·.2)) := List.filter_sublist.map _
  rw [List.zipIdx_map_snd] at hnumbers
  exact List.Pairwise.sublist hnumbers List.pairwise_lt_range'

theorem mem_listing {kind : String} {cs : List Checker} {i : Nat} :
    i ∈ listing kind 0 cs ↔ ∃ c, cs[i]? = some c ∧ kind ∈ c.kinds := by
  unfold listing
  constructor
  · intro h
    obtain ⟨⟨c, j⟩, hc, rfl⟩ := List.mem_map.1 h
    obtain ⟨hc, hkind⟩ := List.mem_filter.1 hc
    exact ⟨c, List.mk_mem_zipIdx_iff_getElem?.1 hc, of_decide_eq_true hkind⟩
  · rintro ⟨c, hc, hkind⟩
    have hlisted : (c, i) ∈ cs.zipIdx 0 := List.mk_mem_zipIdx_iff_getElem?.2 hc
    exact List.mem_map.2 ⟨(c, i), List.mem_filter.2 ⟨hlisted, decide_eq_true hkind⟩, rfl⟩

end Guardrails.Dispatch
