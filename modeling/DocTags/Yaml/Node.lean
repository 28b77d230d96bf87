import DocTags.Yaml.Token.Lexer

/-!
# The structure of a file

The tokens of a file make up one node: a scalar, a list or a mapping.  A node that is left out is an
empty plain scalar.
-/

namespace DocTags.Yaml

/-- A part of a file. -/
inductive Node where
  | scalar (plain : Bool) (text : List Char)
  | sequence (items : List Node)
  /-- A mapping.  Its keys must be distinct, unless pairs of other mappings were merged into it. -/
  | mapping (merged : Bool) (pairs : List (Node × Node))
  /-- A mapping into which something is merged that cannot be. -/
  | broken

namespace Node

/-- What stands for a node that is left out. -/
def empty : Node := .scalar true []

/-- A node, and the tokens behind it. -/
abbrev Parsed := Except Fault (Node × List Token)

/-- The fault of a token that cannot stand where it does. -/
def faultOf : List Token → Fault
  | .stop fault :: _ => fault
  | _ => .malformed

/-- `true` when the next token is one of the given ones. -/
def isNext (ts : List Token) (these : List Token) : Bool :=
  ts.head?.any these.contains

mutual

/-- The node at the head of the tokens.  Behind a key a list may stand without a block of its own;
that is what `loose` tells.  The first argument bounds the number of steps. -/
def parse (loose : Bool) : Nat → List Token → Parsed
  | 0, _ => .error .malformed
  | n + 1, ts =>
    match ts with
    | .scalar plain text :: ts => .ok (.scalar plain text, ts)
    | .openBracket :: ts => flowItems n true [] ts
    | .openBrace :: ts => flowPairs n true [] ts
    | .blockSequence :: ts => blockItems n [] ts
    | .blockMapping :: ts => blockPairs n [] ts
    | .item :: _ => if loose then looseItems n [] ts else .error .malformed
    | ts => .error (faultOf ts)

/-- The node at the head of the tokens, or an empty one before one of the given tokens. -/
def parseOr (loose : Bool) (these : List Token) : Nat → List Token → Parsed
  | 0, _ => .error .malformed
  | n + 1, ts => if isNext ts these then .ok (empty, ts) else parse loose n ts

/-- The items of a block, behind those read before. -/
def blockItems : Nat → List Node → List Token → Parsed
  | 0, _, _ => .error .malformed
  | _, items, .blockEnd :: ts => .ok (.sequence items, ts)
  | n + 1, items, .item :: ts => do
    let (item, ts) ← parseOr false [.item, .blockEnd] n ts
    blockItems n (items ++ [item]) ts
  | _, _, ts => .error (faultOf ts)

/-- The items of a list that has no block of its own; it ends with its last item. -/
def looseItems : Nat → List Node → List Token → Parsed
  | 0, _, _ => .error .malformed
  | n + 1, items, .item :: ts => do
    let (item, ts) ← parseOr false [.item, .key, .value, .blockEnd] n ts
    looseItems n (items ++ [item]) ts
  | _, items, ts => .ok (.sequence items, ts)

/-- The value behind a key, which is there if its colon is; it is empty before one of the given
tokens. -/
def valuePart (loose : Bool) (these : List Token) : Nat → List Token → Parsed
  | 0, _ => .error .malformed
  | n + 1, .value :: ts => parseOr loose these n ts
  | _, ts => .ok (empty, ts)

/-- The pairs of a block, behind those read before.  A pair may begin with its colon. -/
def blockPairs : Nat → List (Node × Node) → List Token → Parsed
  | 0, _, _ => .error .malformed
  | _, pairs, .blockEnd :: ts => .ok (.mapping false pairs, ts)
  | n + 1, pairs, .key :: ts => do
    let (key, ts) ← parseOr true [.key, .value, .blockEnd] n ts
    let (v, ts) ← valuePart true [.key, .value, .blockEnd] n ts
    blockPairs n (pairs ++ [(key, v)]) ts
  | n + 1, pairs, .value :: ts => do
    let (v, ts) ← valuePart true [.key, .value, .blockEnd] n (.value :: ts)
    blockPairs n (pairs ++ [(empty, v)]) ts
  | _, _, ts => .error (faultOf ts)

/-- The items of a list between brackets, behind those read before.  A key among them begins a
mapping of one pair, and a comma may stand behind the last item. -/
def flowItems : Nat → Bool → List Node → List Token → Parsed
  | 0, _, _, _ => .error .malformed
  | _, _, items, .closeBracket :: ts => .ok (.sequence items, ts)
  | n + 1, false, items, .comma :: ts => flowItems n true items ts
  | _, false, _, ts => .error (faultOf ts)
  | n + 1, true, items, .key :: ts => do
    let (key, ts) ← parseOr false [.value, .comma, .closeBracket] n ts
    let (v, ts) ← valuePart false [.comma, .closeBracket] n ts
    flowItems n false (items ++ [.mapping false [(key, v)]]) ts
  | n + 1, true, items, ts => do
    let (item, ts) ← parse false n ts
    flowItems n false (items ++ [item]) ts

/-- The pairs of a mapping between braces, behind those read before.  A node without a colon is a
key without value. -/
def flowPairs : Nat → Bool → List (Node × Node) → List Token → Parsed
  | 0, _, _, _ => .error .malformed
  | _, _, pairs, .closeBrace :: ts => .ok (.mapping false pairs, ts)
  | n + 1, false, pairs, .comma :: ts => flowPairs n true pairs ts
  | _, false, _, ts => .error (faultOf ts)
  | n + 1, true, pairs, .key :: ts => do
    let (key, ts) ← parseOr false [.value, .comma, .closeBrace] n ts
    let (v, ts) ← valuePart false [.comma, .closeBrace] n ts
    flowPairs n false (pairs ++ [(key, v)]) ts
  | n + 1, true, pairs, .value :: ts => do
    let (v, ts) ← valuePart false [.comma, .closeBrace] n (.value :: ts)
    flowPairs n false (pairs ++ [(empty, v)]) ts
  | n + 1, true, pairs, ts => do
    let (key, ts) ← parse false n ts
    flowPairs n false (pairs ++ [(key, empty)]) ts

end

/-- The node of the only document of a file; `none` if there is no document at all.  A document may
have a mark before it and one behind it, and may be empty if it has one before it. -/
def ofTokens (ts : List Token) : Except Fault (Option Node) := do
  let n := 3 * ts.length + 3
  match ts with
  | [] => return none
  | ts =>
    let (node, ts) ← match ts with
      | .documentStart :: ts =>
        if ts.isEmpty || isNext ts [.documentStart, .documentEnd] then pure (empty, ts)
        else parse false n ts
      | ts => parse false n ts
    match ts with
    | [] | [.documentEnd] => return some node
    | .documentEnd :: ts => throw (faultOf ts)
    | ts => throw (faultOf ts)

end Node
end DocTags.Yaml
