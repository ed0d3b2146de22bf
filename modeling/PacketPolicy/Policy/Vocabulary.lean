namespace PacketPolicy

/-!
# Vocabularies

The enumerations that rules, users and the journal are made of.  Each of their members
has one name, in small letters, by which it is known in documents, in the ledger and in
scripts; `Named` is that correspondence with its two laws.

* `Named.ofName?` -- the member of a name; the inverse of `Named.name`;
* `Chain`, `Protocol`, `Action` -- what a rule is about;
* `Role` -- what a user may do, in ascending order of privilege.
-/

/-- Types with finitely many members that are told apart by their names. -/
class Named (α : Type) where
  /-- The members, in the order in which they are listed. -/
  all : List α
  name : α → String
  mem_all : ∀ a, a ∈ all
  name_injective : ∀ a b, name a = name b → a = b

namespace Named

variable {α : Type} [Named α]

/-- The member with a given name. -/
def ofName? (s : String) : Option α :=
  (all : List α).find? fun a => name a == s

/-- The names of all members, in order. -/
def names (α : Type) [Named α] : List String :=
  (all : List α).map name

theorem name_of_ofName? {s : String} {a : α} (h : ofName? s = some a) : name a = s := by
  simpa using List.find?_some h

/-- A member is found by its own name. -/
@[simp]
theorem ofName?_name (a : α) : ofName? (name a) = some a := by
  cases h : (ofName? (name a) : Option α) with
  | none => simpa using (List.find?_eq_none.mp h) a (mem_all a)
  | some b => rw [name_injective b a (name_of_ofName? h)]

theorem ofName?_eq_some_iff {s : String} {a : α} : ofName? s = some a ↔ name a = s :=
  ⟨name_of_ofName?, fun h => h ▸ ofName?_name a⟩

end Named

/-- The direction of the traffic that a rule is about. -/
inductive Chain where
  /-- Packets addressed to this host. -/
  | input
  /-- Packets routed through this host. -/
  | forward
  /-- Packets that come from this host. -/
  | output
deriving DecidableEq, Repr, Inhabited

/-- Scripts list the chains in this order. -/
instance : Named Chain where
  all := [.input, .forward, .output]
  name
    | .input => "input"
    | .forward => "forward"
    | .output => "output"
  mem_all a := by cases a <;> simp
  name_injective a b := by cases a <;> cases b <;> simp

/-- The protocol that a rule is about. -/
inductive Protocol where
  /-- Every protocol. -/
  | all
  | tcp
  | udp
  | icmp
deriving DecidableEq, Repr, Inhabited

instance : Named Protocol where
  all := [.all, .tcp, .udp, .icmp]
  name
    | .all => "all"
    | .tcp => "tcp"
    | .udp => "udp"
    | .icmp => "icmp"
  mem_all a := by cases a <;> simp
  name_injective a b := by cases a <;> cases b <;> simp

/-- Only these two protocols have ports. -/
def Protocol.hasPorts : Protocol → Bool
  | .tcp | .udp => true
  | .all | .icmp => false

/-- What happens to a packet. -/
inductive Action where
  /-- The packet passes. -/
  | accept
  /-- The packet is discarded without an answer. -/
  | drop
deriving DecidableEq, Repr, Inhabited

instance : Named Action where
  all := [.accept, .drop]
  name
    | .accept => "accept"
    | .drop => "drop"
  mem_all a := by cases a <;> simp
  name_injective a b := by cases a <;> cases b <;> simp

/-- What a user may do. -/
inductive Role where
  | viewer
  | operator
  | admin
deriving DecidableEq, Repr, Inhabited

instance : Named Role where
  all := [.viewer, .operator, .admin]
  name
    | .viewer => "viewer"
    | .operator => "operator"
    | .admin => "admin"
  mem_all a := by cases a <;> simp
  name_injective a b := by cases a <;> cases b <;> simp

/-- The place of a role in the order of privilege. -/
def Role.rank : Role → Nat
  | .viewer => 0
  | .operator => 1
  | .admin => 2

/-- Whether a role may do what another one may do. -/
def Role.covers (held required : Role) : Bool :=
  required.rank ≤ held.rank

end PacketPolicy
