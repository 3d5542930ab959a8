import Mathlib.Data.List.Nodup
import Solnet.Daemon.Consensus

/-! What stands behind a consensus value. Votes and strikes go by the id as it is written, a
query goes to the id without its trailing slashes. -/
namespace Solnet.Daemon.ConsensusRouter
open Runs

/-- A reply from the endpoint has the value, once printed and read back. -/
def Returned (lib : Serde) (results : List (String × Except String Value)) (v : Value)
    (endpoint : String) : Prop :=
  ∃ nodeId val, (nodeId, .ok val) ∈ results ∧ trimEndSlashes nodeId = endpoint ∧
    (lib.fromStr (lib.toString val)).getD .null = v

def TwoEndpoints (lib : Serde) (results : List (String × Except String Value)) (v : Value) : Prop :=
  ∃ a b, a ≠ b ∧ Returned lib results v a ∧ Returned lib results v b

/-- No id has three strikes that is a spelling of a selected one. -/
def Unstruck (router : ConsensusRouter) (selected : List String) : Prop :=
  ∀ n ∈ selected, ∀ m, trimEndSlashes m = trimEndSlashes n → router.strikes m < 3

/-- Whatever comes between the choice of the nodes and the replies, a value that the call returns
has two different endpoints behind it, and no queried endpoint was blacklisted. -/
def Backed (lib : Serde) (w w₁ : World) (query : Query) : Prop :=
  ∀ events w₂ post clock order v w₃, Run (Step lib) w₁ events w₂ →
    Step lib w₂ (.answers query post clock order (.ok v)) w₃ →
      TwoEndpoints lib (query.results lib post) v ∧ Unstruck w.router query.selected

variable {lib : Serde} {query : Query} {v : Value} {results : List (String × Except String Value)}
  {post : Nat → String → Value → Except String Value} {clock : String → Nat}
  {order : List ((_ : String) × List String)} {w w' : World} {k : String}

/-- All nodes answer null, but for the one at the place `i`, which times out. -/
def silentAt (i : Nat) (place : Nat) (_ : String) (_ : Value) : Except String Value :=
  if place = i then .error "operation timed out" else .ok .null

theorem not_twoEndpoints {a b c text : String} {h : Value}
    (perm : results.Perm [(a, .ok h), (b, .ok h), (c, .error text)])
    (same : trimEndSlashes a = trimEndSlashes b) : ¬ TwoEndpoints lib results v := by
  have only (n : String) (val : Value) (found : (n, .ok val) ∈ results) :
      trimEndSlashes n = trimEndSlashes b := by
    have listed := perm.subset found
    simp only [List.mem_cons, Prod.mk.injEq, reduceCtorEq, and_false, List.not_mem_nil,
      or_false] at listed
    rcases listed with ⟨rfl, _⟩ | ⟨rfl, _⟩
    · exact same
    · rfl
  rintro ⟨_, _, differ, ⟨n, val, first, rfl, _⟩, ⟨m, val', second, rfl, _⟩⟩
  exact differ ((only n val first).trans (only m val' second).symm)

/-- A call that is backed whatever the replies are is so for silent nodes. -/
theorem Backed.silent {w₁ : World} (backed : Backed lib w w₁ query) (bounded : Bounded w₁)
    (member : query ∈ w₁.inFlight) {i : Nat}
    (majority : Majority .null (query.results lib (silentAt i))) :
    (∃ v, TwoEndpoints lib (query.results lib (silentAt i)) v) ∧
      Unstruck w.router query.selected := by
  obtain ⟨w₃, step⟩ := answers_majority bounded member (fun _ => 0) majority (.refl _)
  obtain ⟨two, unstruck⟩ := backed [] w₁ (silentAt i) _ _ _ w₃ (.nil w₁) step
  exact ⟨⟨_, two⟩, unstruck⟩

theorem Backed.nodup {w₁ : World} (backed : Backed lib w w₁ query) (bounded : Bounded w₁)
    (member : query ∈ w₁.inFlight) : (query.selected.map trimEndSlashes).Nodup := by
  have three := bounded.three query member
  obtain ⟨method, params, selected⟩ := query
  obtain ⟨a, b, c, rfl⟩ := List.length_eq_three.mp three
  by_contra repeats
  have pair : trimEndSlashes a = trimEndSlashes b ∨ trimEndSlashes a = trimEndSlashes c ∨
      trimEndSlashes b = trimEndSlashes c := by
    by_contra apart
    simp only [not_or] at apart
    apply repeats
    simp [apart.1, apart.2.1, apart.2.2]
  -- the endpoint that is queried twice answers, and the other node does not
  rcases pair with same | same | same
  · have perm : (Query.results lib (silentAt 2) ⟨method, params, [a, b, c]⟩).Perm
        [(a, .ok .null), (b, .ok .null), (c, .error "operation timed out")] := .refl _
    obtain ⟨⟨v, two⟩, _⟩ := backed.silent bounded member ⟨_, _, _, _, perm⟩
    exact not_twoEndpoints perm same two
  · have perm : (Query.results lib (silentAt 1) ⟨method, params, [a, b, c]⟩).Perm
        [(a, .ok .null), (c, .ok .null), (b, .error "operation timed out")] :=
      (List.Perm.swap _ _ []).cons _
    obtain ⟨⟨v, two⟩, _⟩ := backed.silent bounded member ⟨_, _, _, _, perm⟩
    exact not_twoEndpoints perm same two
  · have perm : (Query.results lib (silentAt 0) ⟨method, params, [a, b, c]⟩).Perm
        [(b, .ok .null), (c, .ok .null), (a, .error "operation timed out")] :=
      @List.perm_append_comm _ [_] [_, _]
    obtain ⟨⟨v, two⟩, _⟩ := backed.silent bounded member ⟨_, _, _, _, perm⟩
    exact not_twoEndpoints perm same two

theorem Backed.unstruck {w₁ : World} (backed : Backed lib w w₁ query) (bounded : Bounded w₁)
    (member : query ∈ w₁.inFlight) : Unstruck w.router query.selected := by
  have three := bounded.three query member
  have majority : Majority .null (query.results lib (silentAt 3)) := by
    obtain ⟨method, params, selected⟩ := query
    obtain ⟨a, b, c, rfl⟩ := List.length_eq_three.mp three
    exact ⟨a, b, c, .ok .null, .refl _⟩
  exact (backed.silent bounded member majority).2

end Solnet.Daemon.ConsensusRouter
