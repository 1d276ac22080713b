import KpiReport.Yaml.Token

/-!
# YAML documents

A document is a tree of scalars, sequences and mappings. References to anchors are replaced by what
they stand for when the tree is built. Only the first document of a text is read.
-/

namespace KpiReport.Yaml

/-- A YAML document. A scalar remembers whether it was plain, because only a plain one can stand
for something other than text. -/
inductive Node where
  | scalar (tag : String) (plain : Bool) (text : String)
  | sequence (tag : String) (items : List Node)
  | mapping (tag : String) (entries : List (Node × Node))
deriving Repr, Inhabited

/-- The node of a place where nothing is written. -/
def Node.blank (tag : String) : Node := .scalar tag true ""

/-- The state of building a tree: the tokens ahead, and the anchored nodes so far. -/
structure Builder where
  tokens : List Token
  anchors : List (String × Node)
deriving Inhabited

namespace Builder

/-- The token ahead. -/
def peek (b : Builder) : Token := b.tokens.headD .streamEnd

/-- Moves over the token ahead. -/
def next (b : Builder) : Builder := { b with tokens := b.tokens.tail }

/-- The tags that can be written with a short or an empty handle. -/
def isKnownTag (tag : String) : Bool :=
  match tag.toList with
  | ['!'] => true
  | '!' :: '<' :: _ => true
  | '!' :: '!' :: r => !r.isEmpty && !r.contains '!'
  | '!' :: r => !r.contains '!'
  | _ => false

/-- A tag in its short form. -/
def shortTag (tag : String) : String :=
  let long := "!<tag:yaml.org,2002:".toList
  if long.isPrefixOf tag.toList then
    "!!" ++ String.ofList (tag.toList.drop long.length).dropLast
  else tag

/-- Reads the anchor and the tag of a node, in either order. -/
def properties (b : Builder) : Except Fault (Option String × String × Builder) := do
  let checked (t : String) : Except Fault String :=
    if isKnownTag t then .ok (shortTag t) else .error .badTag
  match b.peek with
  | .anchor a =>
    let b := b.next
    match b.peek with
    | .tag t => return (some a, ← checked t, b.next)
    | _ => return (some a, "", b)
  | .tag t =>
    let b := b.next
    match b.peek with
    | .anchor a => return (some a, ← checked t, b.next)
    | _ => return (none, ← checked t, b)
  | _ => return (none, "", b)

/-- Enters a node under its anchor. -/
def register (b : Builder) (anchor : Option String) (n : Node) : Node × Builder :=
  match anchor with
  | none => (n, b)
  | some a => (n, { b with anchors := (a, n) :: b.anchors })

/-- A token that ends an entry of a block mapping. -/
def endsBlockPart : Token → Bool
  | .key | .value | .blockEnd => true
  | _ => false

/-- A token that ends an entry of a block sequence. -/
def endsBlockItem : Token → Bool
  | .blockEntry | .blockEnd => true
  | _ => false

/-- A token that ends an entry of a sequence without indentation of its own. -/
def endsIndentlessItem : Token → Bool
  | .blockEntry | .key | .value | .blockEnd => true
  | _ => false

/-- A token that ends an entry between brackets. -/
def endsFlowItem : Token → Bool
  | .flowEntry | .flowSequenceEnd | .flowMappingEnd => true
  | _ => false

mutual

/-- Reads a node. `block` admits indented forms, `indentless` a sequence without indentation. -/
def node (block indentless : Bool) : Nat → Builder → Except Fault (Node × Builder)
  | 0, _ => .error .nestingTooDeep
  | fuel + 1, b =>
    match b.peek with
    | .reference a =>
      match b.anchors.lookup a with
      | some n => .ok (n, b.next)
      | none => .error .unknownAnchor
    | _ => do
      let (anchor, tag, b) ← b.properties
      match b.peek with
      | .scalar text plain => return b.next.register anchor (.scalar tag plain text)
      | .flowSequenceStart =>
        let (items, b) ← flowItems fuel true b.next
        return b.register anchor (.sequence tag items)
      | .flowMappingStart =>
        let (entries, b) ← flowEntries fuel true b.next
        return b.register anchor (.mapping tag entries)
      | .blockEntry =>
        if indentless then
          let (items, b) ← indentlessItems fuel b
          return b.register anchor (.sequence tag items)
        else if anchor.isSome || tag != "" then return b.register anchor (.blank tag)
        else throw .unexpectedToken
      | .blockSequenceStart =>
        if block then
          let (items, b) ← blockItems fuel b.next
          return b.register anchor (.sequence tag items)
        else throw .unexpectedToken
      | .blockMappingStart =>
        if block then
          let (entries, b) ← blockEntries fuel b.next
          return b.register anchor (.mapping tag entries)
        else throw .unexpectedToken
      | _ =>
        if anchor.isSome || tag != "" then return b.register anchor (.blank tag)
        else throw .unexpectedToken

/-- Reads the items of an indented sequence. -/
def blockItems : Nat → Builder → Except Fault (List Node × Builder)
  | 0, _ => .error .nestingTooDeep
  | fuel + 1, b =>
    match b.peek with
    | .blockEntry => do
      let b := b.next
      let (n, b) ← if endsBlockItem b.peek then pure (.blank "", b) else node true false fuel b
      let (ns, b) ← blockItems fuel b
      return (n :: ns, b)
    | .blockEnd => .ok ([], b.next)
    | _ => .error .unexpectedToken

/-- Reads the items of a sequence without indentation of its own. -/
def indentlessItems : Nat → Builder → Except Fault (List Node × Builder)
  | 0, _ => .error .nestingTooDeep
  | fuel + 1, b =>
    match b.peek with
    | .blockEntry => do
      let b := b.next
      let (n, b) ←
        if endsIndentlessItem b.peek then pure (.blank "", b) else node true false fuel b
      let (ns, b) ← indentlessItems fuel b
      return (n :: ns, b)
    | _ => .ok ([], b)

/-- Reads the entries of an indented mapping. -/
def blockEntries : Nat → Builder → Except Fault (List (Node × Node) × Builder)
  | 0, _ => .error .nestingTooDeep
  | fuel + 1, b =>
    match b.peek with
    | .key => do
      let b := b.next
      let (k, b) ← if endsBlockPart b.peek then pure (.blank "", b) else node true true fuel b
      let (v, b) ←
        match b.peek with
        | .value =>
          let b := b.next
          if endsBlockPart b.peek then pure (.blank "", b) else node true true fuel b
        | _ => pure (.blank "", b)
      let (es, b) ← blockEntries fuel b
      return ((k, v) :: es, b)
    | .blockEnd => .ok ([], b.next)
    | _ => .error .unexpectedToken

/-- Reads a value between brackets, if there is one. -/
def flowValue : Nat → Builder → Except Fault (Node × Builder)
  | 0, _ => .error .nestingTooDeep
  | fuel + 1, b =>
    match b.peek with
    | .value =>
      let b := b.next
      if endsFlowItem b.peek then .ok (.blank "", b) else node false false fuel b
    | _ => .ok (.blank "", b)

/-- Reads the items of a bracketed sequence. A pair among them is a mapping with one entry. -/
def flowItems : Nat → Bool → Builder → Except Fault (List Node × Builder)
  | 0, _, _ => .error .nestingTooDeep
  | fuel + 1, first, b =>
    match b.peek with
    | .flowSequenceEnd => .ok ([], b.next)
    | t => do
      let b ← if first then pure b else if t == .flowEntry then pure b.next
        else throw .unexpectedToken
      match b.peek with
      | .flowSequenceEnd => return ([], b.next)
      | .key =>
        let b := b.next
        let (k, b) ←
          if b.peek == .value || endsFlowItem b.peek then pure (.blank "", b)
          else node false false fuel b
        let (v, b) ← flowValue fuel b
        let (ns, b) ← flowItems fuel false b
        return (.mapping "" [(k, v)] :: ns, b)
      | _ =>
        let (n, b) ← node false false fuel b
        let (ns, b) ← flowItems fuel false b
        return (n :: ns, b)

/-- Reads the entries of a bracketed mapping. -/
def flowEntries : Nat → Bool → Builder → Except Fault (List (Node × Node) × Builder)
  | 0, _, _ => .error .nestingTooDeep
  | fuel + 1, first, b =>
    match b.peek with
    | .flowMappingEnd => .ok ([], b.next)
    | t => do
      let b ← if first then pure b else if t == .flowEntry then pure b.next
        else throw .unexpectedToken
      match b.peek with
      | .flowMappingEnd => return ([], b.next)
      | .key =>
        let b := b.next
        let (k, b) ←
          if b.peek == .value || endsFlowItem b.peek then pure (.blank "", b)
          else node false false fuel b
        let (v, b) ← flowValue fuel b
        let (es, b) ← flowEntries fuel false b
        return ((k, v) :: es, b)
      | _ =>
        let (k, b) ← node false false fuel b
        let (es, b) ← flowEntries fuel false b
        return ((k, .blank "") :: es, b)

end

/-- Reads the directives before a document; they must name a version that is understood. -/
def directives : List Token → Except Fault (List Token)
  | .directive text :: r =>
    if (String.ofList text).startsWith "%YAML 1.1" || (String.ofList text).startsWith "%TAG " then
      directives r
    else .error .badDirective
  | ts => .ok ts

/-- A token that ends a document. -/
def endsDocument : Token → Bool
  | .directive _ | .documentStart | .documentEnd | .streamEnd => true
  | _ => false

/-- Reads the first document of a token list; none if there is no document. -/
def document (ts : List Token) : Except Fault (Option Node) := do
  match ts.headD .streamEnd with
  | .streamEnd => return none
  | .directive _ | .documentStart =>
    let ts ← directives ts
    match ts with
    | .documentStart :: ts =>
      if endsDocument (ts.headD .streamEnd) then return some (.blank "")
      finished (← node true false (ts.length + 1) ⟨ts, []⟩)
    | _ => throw .badDirective
  | _ => finished (← node true false (ts.length + 1) ⟨ts, []⟩)
where
  /-- The token behind a document must at least be readable. -/
  finished (r : Node × Builder) : Except Fault (Option Node) :=
    match r.2.peek with
    | .fault f => .error f
    | _ => .ok (some r.1)

end Builder

namespace Node

/-- A scalar that stands for no value: a plain one, or one with a tag that says so. -/
def isNull : Node → Bool
  | .scalar tag plain text =>
    (tag == "!!null" || (tag == "" && plain)) && ["", "~", "null", "Null", "NULL"].contains text
  | _ => false

/-- The key under which the entries of another mapping are taken over. -/
def isMergeKey : Node → Bool
  | .scalar "" plain "<<" => plain
  | .scalar "!!merge" _ "<<" => true
  | _ => false

mutual

/-- The number of nodes of a tree, as a bound for walking through it. -/
def weight : Node → Nat
  | .scalar .. => 1
  | .sequence _ items => 1 + weightOfItems items
  | .mapping _ entries => 1 + weightOfEntries entries

/-- The number of nodes in a sequence. -/
def weightOfItems : List Node → Nat
  | [] => 0
  | n :: ns => n.weight + weightOfItems ns

/-- The number of nodes in a mapping. -/
def weightOfEntries : List (Node × Node) → Nat
  | [] => 0
  | (k, v) :: es => k.weight + v.weight + weightOfEntries es

end

end Node

/-- The first document of a text; none if the text has no document. -/
def parse (text : String) : Except Fault (Option Node) :=
  Builder.document (tokens text)

end KpiReport.Yaml
