import PacketPolicy.Policy.Script

/-!
# The language of scripts

A reader for scripts that knows nothing of how they are written: characters are put together
into tokens, tokens into lines, the tokens of a line into clauses, the clauses into a statement
and statements into the blocks of chains.

* `Reading.scan?`, `linesFrom` -- words, quoted texts and marks; a line feed and a semicolon
  both end a line, and lines without tokens do not count;
* `Clause.read?`, `clauses?` -- clauses one after the other, up to the action at the end;
* `Filter`, `Statement.read?` -- what a statement asks of a packet;
* `blocks?` -- the blocks of a table, line by line;
* `read?` -- a whole script.

The reader takes nothing on trust.  A character that belongs to no token, a clause out of its
place or a line that is no statement means that the text is no script.
-/

namespace PacketPolicy
namespace Script

/-! ## Tokens -/

/-- What scripts are made of. -/
inductive Token where
  | word (text : String)
  | quoted (text : String)
  | opening
  | closing
  | comma
  /-- The end of a line or of a statement. -/
  | stop
deriving DecidableEq, Repr

/-- The characters of words. -/
def isWordChar (c : Char) : Bool :=
  c.isAlphanum || c == '.' || c == ':' || c == '/' || c == '+'

/-- The tokens of a character that stands for itself; a blank only ends a word. -/
def mark? (c : Char) : Option (List Token) :=
  if c = ' ' then some []
  else if c = '\n' ∨ c = ';' then some [.stop]
  else if c = ',' then some [.comma]
  else if c = '\x7b' then some [.opening]
  else if c = '\x7d' then some [.closing]
  else none

/-- What is being read, with its characters so far, the last of them first. -/
inductive Reading where
  | word (run : List Char)
  | quoted (run : List Char)

/-- The word that ends here, if there is one. -/
def wordOf (run : List Char) : List Token :=
  if run.isEmpty then [] else [.word (String.ofList run.reverse)]

/-- The tokens of a text.  A quoted text ends on the line on which it began. -/
def Reading.scan? : Reading → List Char → Option (List Token)
  | .word run, [] => some (wordOf run)
  | .quoted _, [] => none
  | .word run, c :: cs =>
      if isWordChar c then scan? (.word (c :: run)) cs
      else if c = '"' then (scan? (.quoted []) cs).map (wordOf run ++ ·)
      else
        match mark? c with
        | some tokens => (scan? (.word []) cs).map (wordOf run ++ tokens ++ ·)
        | none => none
  | .quoted run, c :: cs =>
      if c = '"' then
        (scan? (.word []) cs).map (Token.quoted (String.ofList run.reverse) :: ·)
      else if c = '\n' then none
      else scan? (.quoted (c :: run)) cs

/-- The lines that have tokens; `run` is the line being collected, last token first. -/
def linesFrom (run : List Token) : List Token → List (List Token)
  | [] => if run.isEmpty then [] else [run.reverse]
  | .stop :: tokens =>
      if run.isEmpty then linesFrom [] tokens else run.reverse :: linesFrom [] tokens
  | token :: tokens => linesFrom (token :: run) tokens

/-- The lines of a text. -/
def textLines? (cs : List Char) : Option (List (List Token)) :=
  ((Reading.word []).scan? cs).map (linesFrom [])

/-! ## Clauses -/

/-- One condition of a statement. -/
inductive Clause where
  /-- The packet belongs to a connection that is known. -/
  | known
  | inbound (name : String)
  | outbound (name : String)
  | protocol (p : Protocol)
  | ports (p : Protocol) (numbers : List UInt16)
  | source (family : Network.Family) (block : String)
  | destination (family : Network.Family) (block : String)
  | icmpTypes (numbers : List UInt8)
deriving DecidableEq, Repr

/-- The family of a word. -/
def family? (s : String) : Option Network.Family :=
  if s = Network.Family.ip.word then some .ip
  else if s = Network.Family.ip6.word then some .ip6
  else none

/-- A number below a limit. -/
def number? (limit : Nat) (s : String) : Option Nat :=
  match Text.natOfDigits? s.toList with
  | some n => if n < limit then some n else none
  | none => none

/-- The rest of a set of numbers, after its opening brace; there is at least one number. -/
def numbers? (limit : Nat) : List Token → Option (List Nat × List Token)
  | .word s :: .comma :: tokens => do
      let n ← number? limit s
      let (ns, rest) ← numbers? limit tokens
      some (n :: ns, rest)
  | .word s :: .closing :: tokens => do
      let n ← number? limit s
      some ([n], tokens)
  | _ => none

/-- The clause at the front. -/
def Clause.read? : List Token → Option (Clause × List Token)
  | .word "ct" :: .word "state" :: .word "established" :: .comma :: .word "related" :: tokens =>
      some (.known, tokens)
  | .word "iifname" :: .quoted name :: tokens => some (.inbound name, tokens)
  | .word "oifname" :: .quoted name :: tokens => some (.outbound name, tokens)
  | .word "meta" :: .word "l4proto" :: .word p :: tokens => do
      let p ← Named.ofName? p
      some (.protocol p, tokens)
  | .word "icmp" :: .word "type" :: .opening :: tokens => do
      let (ns, rest) ← numbers? 256 tokens
      some (.icmpTypes (ns.map Nat.toUInt8), rest)
  | .word s :: .word "dport" :: .opening :: tokens => do
      let p ← (Named.ofName? s : Option Protocol)
      let (ns, rest) ← numbers? 65536 tokens
      if p.hasPorts then some (.ports p (ns.map Nat.toUInt16), rest) else none
  | .word s :: .word "saddr" :: .word block :: tokens => do
      let family ← family? s
      some (.source family block, tokens)
  | .word s :: .word "daddr" :: .word block :: tokens => do
      let family ← family? s
      some (.destination family block, tokens)
  | _ => none

theorem length_of_numbers? {limit : Nat} {tokens rest : List Token} {ns : List Nat}
    (h : numbers? limit tokens = some (ns, rest)) : rest.length < tokens.length := by
  induction tokens using numbers?.induct generalizing ns with
  | case1 s tokens ih =>
      simp only [numbers?, Option.bind_eq_bind, Option.bind_eq_some_iff] at h
      obtain ⟨n, -, ⟨more, last⟩, hmore, heq⟩ := h
      obtain ⟨-, rfl⟩ := Prod.mk.inj (Option.some.inj heq)
      have hless : last.length < tokens.length := ih hmore
      simp only [List.length_cons]
      omega
  | case2 s tokens =>
      simp only [numbers?, Option.bind_eq_bind, Option.bind_eq_some_iff] at h
      obtain ⟨n, -, heq⟩ := h
      cases heq
      simp only [List.length_cons]
      omega
  | case3 tokens hcomma hclosing =>
      rw [numbers?] at h
      · cases h
      · exact hcomma
      · exact hclosing

/-- A clause has tokens. -/
theorem Clause.length_of_read? {tokens rest : List Token} {c : Clause}
    (h : read? tokens = some (c, rest)) : rest.length < tokens.length := by
  unfold read? at h
  split at h <;>
    simp only [Option.bind_eq_bind, Option.bind_eq_some_iff, Option.some.injEq, Prod.mk.injEq,
      reduceCtorEq] at h
  -- the two clauses with sets of numbers lose what the set has lost, the others a fixed number
  -- of tokens
  case h_5 =>
    obtain ⟨⟨ns, last⟩, hnumbers, -, rfl⟩ := h
    have hless := length_of_numbers? hnumbers
    simp only [List.length_cons]
    omega
  case h_6 =>
    obtain ⟨p, -, ⟨ns, last⟩, hnumbers, h⟩ := h
    have hless := length_of_numbers? hnumbers
    split at h
    · obtain ⟨-, rfl⟩ := Prod.mk.inj (Option.some.inj h)
      simp only [List.length_cons]
      omega
    · cases h
  case h_1 | h_2 | h_3 =>
    obtain ⟨-, rfl⟩ := h
    simp only [List.length_cons]
    omega
  case h_4 | h_7 | h_8 =>
    obtain ⟨named, -, -, rfl⟩ := h
    simp only [List.length_cons]
    omega

/-- The clauses of a statement and the action at its end. -/
def clauses? (tokens : List Token) : Option (List Clause × Action) :=
  match tokens with
  | [.word s] => (Named.ofName? s).map fun action => ([], action)
  | tokens =>
      match h : Clause.read? tokens with
      | some (c, rest) =>
          have := Clause.length_of_read? h
          (clauses? rest).map fun (cs, action) => (c :: cs, action)
      | none => none
termination_by tokens.length

/-! ## Statements -/

/-- What a statement asks of a packet, and what happens to a packet that satisfies all of it. -/
structure Filter where
  inInterface : Option String
  outInterface : Option String
  protocol : Option Protocol
  ports : Option (Protocol × List UInt16)
  sources : List (Network.Family × String)
  destinations : List (Network.Family × String)
  icmpTypes : Option (List UInt8)
  action : Action
deriving DecidableEq, Repr

/-- The clauses of a filter in the order in which they have to stand. -/
def Filter.clauses (f : Filter) : List Clause :=
  (f.inInterface.toList.map .inbound) ++
  (f.outInterface.toList.map .outbound) ++
  (f.protocol.toList.map .protocol) ++
  (f.ports.toList.map fun (p, numbers) => .ports p numbers) ++
  (f.sources.map fun (family, block) => .source family block) ++
  (f.destinations.map fun (family, block) => .destination family block) ++
  (f.icmpTypes.toList.map .icmpTypes)

/-- The filter that also asks for what the clause says. -/
def Clause.addTo (c : Clause) (f : Filter) : Filter :=
  match c with
  | known => f
  | inbound name => { f with inInterface := some name }
  | outbound name => { f with outInterface := some name }
  | protocol p => { f with protocol := some p }
  | ports p numbers => { f with ports := some (p, numbers) }
  | source family block => { f with sources := (family, block) :: f.sources }
  | destination family block => { f with destinations := (family, block) :: f.destinations }
  | icmpTypes numbers => { f with icmpTypes := some numbers }

/-- The filter that asks for nothing. -/
def Filter.blank (action : Action) : Filter where
  inInterface := none
  outInterface := none
  protocol := none
  ports := none
  sources := []
  destinations := []
  icmpTypes := none
  action

/-- What clauses ask of a packet, in whatever order they stand. -/
def Filter.ofClauses (cs : List Clause) (action : Action) : Filter :=
  cs.foldr Clause.addTo (.blank action)

/-- A statement of a chain. -/
inductive Statement where
  /-- Packets of known connections. -/
  | established (action : Action)
  | filter (f : Filter)
deriving DecidableEq, Repr

/-- The statement of clauses that stand in their order, none of them twice but those of
sources and destinations. -/
def Statement.ofClauses? (cs : List Clause) (action : Action) : Option Statement :=
  if (Filter.ofClauses cs action).clauses = cs then some (.filter (.ofClauses cs action))
  else if cs = [.known] then some (.established action)
  else none

/-- The statement of a line. -/
def Statement.read? (line : List Token) : Option Statement := do
  let (cs, action) ← clauses? line
  ofClauses? cs action

/-! ## Blocks -/

/-- A chain with its action for packets that no statement matches. -/
structure ChainBlock where
  chain : Chain
  policy : Action
  statements : List Statement
deriving DecidableEq, Repr

/-- The blocks of a table, up to the brace that closes it; the block that is being read, if
there is one, has the statements so far. -/
def blocks? : Option ChainBlock → List (List Token) → Option (List ChainBlock)
  | none, [[.closing]] => some []
  | none, [.word "chain", .word name, .opening] ::
      [.word "type", .word "filter", .word "hook", .word hook, .word "priority", .word "0"] ::
      [.word "policy", .word policy] :: lines => do
        let chain ← Named.ofName? name
        let policy ← Named.ofName? policy
        if name = hook then blocks? (some ⟨chain, policy, []⟩) lines else none
  | some b, [.closing] :: lines => (blocks? none lines).map (b :: ·)
  | some b, line :: lines => do
      let s ← Statement.read? line
      blocks? (some { b with statements := b.statements ++ [s] }) lines
  | _, _ => none

/-- The blocks of a script. -/
def read? (text : String) : Option (List ChainBlock) := do
  match ← textLines? text.toList with
  | [.word "flush", .word "ruleset"] ::
      [.word "table", .word "inet", .word name, .opening] :: lines =>
        if name = tableName then blocks? none lines else none
  | _ => none

end Script
end PacketPolicy
