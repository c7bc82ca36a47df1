/-
YAML documents.

A text holds at most one document. It may begin with directives, which a marker ends, and it may end with markers. A
version must be one of the two that differ in nothing read here.
-/
import RhythmChart.Yaml.Node

namespace RhythmChart.Yaml

namespace Document

/-- what the handles of tags stand for unless a directive says otherwise -/
def standardHandles : List (List Char × List Char) :=
  [("!".toList, "!".toList), ("!!".toList, "tag:yaml.org,2002:".toList)]

/-- the directives at the start of a document -/
def directives : List Token → List Directive
  | .directive d :: rest => d :: directives rest
  | _ => []

/-- the handles that directives name -/
def handles (ds : List Directive) : List (List Char × List Char) :=
  ds.filterMap fun
    | .handle name text => some (name, text)
    | .version .. => none

/-- the versions that directives name -/
def versions (ds : List Directive) : List (Nat × Nat) :=
  ds.filterMap fun
    | .version major minor => some (major, minor)
    | .handle .. => none

/-- whether no directive contradicts another -/
def agree (ds : List Directive) : Bool :=
  (versions ds).length ≤ 1 && (versions ds).all (fun v => v = (1, 1) || v = (1, 2)) && decide ((handles ds).map (·.1)).Nodup

/-- whether only end markers are left -/
def ended (tokens : List Token) : Bool := tokens.all (· = .documentEnd)

/-- whether nothing is written behind the start marker of a document -/
def isAbsent : List Token → Bool
  | [] => true
  | .directive _ :: _ => true
  | t :: _ => t = .documentStart || t = .documentEnd

/-- the document of these tokens, if that is all they are; `handles` are those that its directives name -/
def ofTokens? (handles : List (List Char × List Char)) (root : Reader Node) (tokens : List Token) : Option Document := do
  let (root, r) ← root.run ⟨tokens, handles ++ standardHandles, [], []⟩
  if ended r.tokens then return ⟨root, r.anchored⟩ else none

/-- the only document of a text: none for a text that is none, and an absent one for a text without content -/
def ofText? (text : List Char) : Option (Option Document) := do
  let tokens ← Token.ofText? text
  let fuel := 4 * tokens.length + 4
  if tokens.isEmpty then return none
  let ds := directives tokens
  if !agree ds then none
  match tokens.drop ds.length with
  | .documentStart :: tokens =>
    ofTokens? (handles ds) (if isAbsent tokens then pure .empty else Reader.node fuel true false) tokens
  | tokens => if ds.isEmpty then ofTokens? [] (Reader.node fuel true false) tokens else none

end Document

end RhythmChart.Yaml
