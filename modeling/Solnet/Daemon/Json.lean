import Mathlib.Tactic.Basic

/-! JSON values as `serde_json` has them, and the proof the daemon attaches to a
reply. The members of an object are kept in key order. Parsing, printing and the
digest come from outside and are fields of `Serde`. -/
namespace Solnet.Daemon

inductive Number where
  | int (value : Int)
  | float (bits : BitVec 64)
  deriving DecidableEq, Repr

inductive Value where
  | null
  | bool (value : Bool)
  | number (value : Number)
  | string (value : String)
  | array (items : List Value)
  | object (members : List (String × Value))
  deriving Repr

abbrev Members := List (String × Value)

/-- `from_slice`, `to_string`, and the digest of a text in hexadecimal. -/
structure Serde where
  fromSlice : ByteArray → Option Value
  toString : Value → String
  sha256Hex : String → String

def Serde.fromStr (lib : Serde) (text : String) : Option Value := lib.fromSlice text.toUTF8

theorem fromUTF8?_toUTF8 (text : String) : String.fromUTF8? text.toUTF8 = some text := by
  simp [String.fromUTF8?]
  exact ⟨text.isValidUTF8, rfl⟩

namespace Members

def lookup (key : String) : Members → Option Value
  | [] => none
  | (k, v) :: rest => if k = key then some v else lookup key rest

def insert (key : String) (value : Value) : Members → Members
  | [] => [(key, value)]
  | (k, v) :: rest =>
    if k = key then (key, value) :: rest
    else if key < k then (key, value) :: (k, v) :: rest
    else (k, v) :: insert key value rest

def remove (key : String) (members : Members) : Members :=
  members.filter fun m => m.1 ≠ key

theorem lookup_insert (key k : String) (value : Value) (members : Members) :
    lookup k (insert key value members) = if k = key then some value else lookup k members := by
  induction members with
  | nil => simp only [insert, lookup, eq_comm (a := k)]
  | cons m rest ih =>
    obtain ⟨k', v⟩ := m
    simp only [insert, lookup]
    split
    · rename_i same
      subst same
      simp only [lookup, eq_comm (a := k)]
      split <;> rfl
    · split
      · simp only [lookup, eq_comm (a := k)]
      · rename_i other _
        simp only [lookup, ih]
        by_cases here : k' = k
        · subst here
          simp only [if_true, if_neg other]
        · simp only [if_neg here]

theorem remove_insert (key : String) (value : Value) (members : Members) :
    remove key (insert key value members) = remove key members := by
  induction members with
  | nil => simp [insert, remove]
  | cons m rest ih =>
    obtain ⟨k, v⟩ := m
    simp only [remove] at ih
    simp only [insert, remove]
    split
    · rename_i same
      simp [same]
    · split
      · simp
      · simp only [List.filter_cons, ih]

theorem remove_of_lookup_none {key : String} {members : Members}
    (absent : lookup key members = none) : remove key members = members := by
  induction members with
  | nil => rfl
  | cons m rest ih =>
    obtain ⟨k, v⟩ := m
    simp only [lookup] at absent
    split at absent
    · cases absent
    · rename_i other
      have kept := ih absent
      simp only [remove] at kept
      simp only [remove, List.filter_cons, other, ne_eq, not_false_eq_true, decide_true, if_true,
        kept]

end Members

namespace Value

def get (value : Value) (key : String) : Option Value :=
  match value with
  | .object members => Members.lookup key members
  | _ => none

def getItem (value : Value) (index : Nat) : Option Value :=
  match value with
  | .array items => items[index]?
  | _ => none

/-- Indexing reads an absent member as null. -/
def index (value : Value) (key : String) : Value := (value.get key).getD .null

def asStr : Value → Option String
  | .string value => some value
  | _ => none

/-- The insertion behind `as_object_mut`: other values stay as they are. -/
def insert (value : Value) (key : String) (member : Value) : Value :=
  match value with
  | .object members => .object (Members.insert key member members)
  | value => value

def remove (value : Value) (key : String) : Value :=
  match value with
  | .object members => .object (Members.remove key members)
  | value => value

theorem get_insert {key k : String} (member : Value) (value : Value) (other : k ≠ key) :
    (value.insert key member).get k = value.get k := by
  cases value with
  | object members =>
    simp only [insert, get, Members.lookup_insert, if_neg other]
  | _ => rfl

theorem index_insert {key k : String} (member : Value) (value : Value) (other : k ≠ key) :
    (value.insert key member).index k = value.index k := by
  rw [index, get_insert member value other]
  rfl

end Value

structure RpcProof where
  rootHash : String
  signature : Option String
  deriving DecidableEq, Repr

def RpcProof.toValue (proof : RpcProof) : Value :=
  .object [("root_hash", .string proof.rootHash),
    ("signature", (proof.signature.map Value.string).getD .null)]

namespace MerkleVerifier

def generateProof (lib : Serde) (response : Value) : Value × RpcProof :=
  (response, ⟨lib.sha256Hex (lib.toString response), none⟩)

def verifyProof (lib : Serde) (response : Value) (proof : RpcProof) : Bool :=
  lib.sha256Hex (lib.toString response) = proof.rootHash

end MerkleVerifier

theorem verify_generated (lib : Serde) (response : Value) :
    MerkleVerifier.verifyProof lib response (MerkleVerifier.generateProof lib response).2 = true :=
  decide_eq_true rfl

end Solnet.Daemon
