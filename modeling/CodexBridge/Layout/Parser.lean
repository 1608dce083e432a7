import CodexBridge.Names
import CodexBridge.SplitTrees

/-! Layouts of panes and their texts. A text is cut into tokens, and a recursive descent over
the tokens builds a tree: `;` splits horizontally and binds weaker than `,`, which splits
vertically. Parentheses group, and right behind a name they belong to its leaf. -/

namespace CodexBridge.Layout

/-! ### Nodes -/

inductive Kind where
  | horizontal | vertical
  deriving DecidableEq

structure LayoutLeaf where
  name : String
  provider : Option String
  workspaceMode : Option String
  deriving DecidableEq

abbrev LayoutNode := SplitTree Kind LayoutLeaf

def Kind.precedence : Kind → ℕ
  | .horizontal => 1
  | .vertical => 2

def Kind.separator : Kind → Char
  | .horizontal => ';'
  | .vertical => ','

def LayoutLeaf.render (leaf : LayoutLeaf) : List Char :=
  match leaf.provider with
  | none => leaf.name.toList
  | some provider =>
    if provider = "" then leaf.name.toList
    else if strip (leaf.workspaceMode.getD "") = "worktree" then
      leaf.name.toList ++ ':' :: (provider.toList ++ "(worktree)".toList)
    else leaf.name.toList ++ ':' :: provider.toList

/-- The text of a child, in parentheses if the child binds weaker than its parent. -/
def renderChild (parentKind : Kind) (node : LayoutNode) (text : List Char) : List Char :=
  match node with
  | .leaf _ => text
  | .branch kind _ _ =>
    if kind.precedence < parentKind.precedence then '(' :: (text ++ [')']) else text

def renderChars : LayoutNode → List Char
  | .leaf leaf => leaf.render
  | .branch kind l r => renderChild kind l (renderChars l) ++
      kind.separator :: ' ' :: renderChild kind r (renderChars r)

def render (node : LayoutNode) : String := String.ofList (renderChars node)

/-! ### Tokens -/

/-- The tokens of a layout. A leaf's token has more than a single bracket or separator. -/
inductive Token where
  | opening
  | closing
  | separator (kind : Kind)
  | leaf (text : List Char)
  deriving DecidableEq

def isLineBreak (c : Char) : Bool :=
  c.toNat ∈ [10, 11, 12, 13, 28, 29, 30, 0x85, 0x2028, 0x2029]

/-- `str.splitlines`, with the line read so far in reverse. -/
def splitLines (line : List Char) : List Char → List (List Char)
  | [] => if line.isEmpty then [] else [line.reverse]
  | '\r' :: '\n' :: cs => line.reverse :: splitLines [] cs
  | c :: cs => if isLineBreak c then line.reverse :: splitLines [] cs else splitLines (c :: line) cs

/-- What stands before the first `//`. -/
def beforeSlashes : List Char → List Char
  | [] => []
  | '/' :: '/' :: _ => []
  | c :: cs => c :: beforeSlashes cs

def withoutComment (line : List Char) : List Char := beforeSlashes (line.takeWhile (· ≠ '#'))

def appendLeafToken (buf : List Char) : List Token :=
  if (stripped buf).isEmpty then [] else [.leaf (stripped buf)]

def symbol (c : Char) : Option Token :=
  if c = '(' then some .opening
  else if c = ')' then some .closing
  else if c = ';' then some (.separator .horizontal)
  else if c = ',' then some (.separator .vertical)
  else none

/-- The tokens of a line. A parenthesis that opens behind a leaf is part of it up to the next
one that closes, if there is one. -/
def scan (buf : List Char) : List Char → List Token
  | [] => appendLeafToken buf
  | c :: cs =>
    if c = '(' ∧ (stripped buf).isEmpty = false ∧ ')' ∈ cs then
      scan (buf ++ '(' :: (cs.takeWhile (· ≠ ')') ++ [')'])) (cs.dropWhile (· ≠ ')')).tail
    else
      match symbol c with
      | some token => appendLeafToken buf ++ token :: scan [] cs
      | none => scan (buf ++ [c]) cs
termination_by cs => cs.length
decreasing_by
  · have hdrop := (List.dropWhile_sublist (· ≠ ')') (l := cs)).length_le
    rw [List.length_tail, List.length_cons]
    omega
  · simp
  · simp

def tokenize (text : String) : List Token :=
  (splitLines [] text.toList).flatMap fun line => scan [] (withoutComment line)

/-! ### Leaves -/

/-- `_LEAF_TOKEN_RE`, behind the provider. -/
def matchMode (provider : String) (cs : List Char) : Option (Option String × Option String) :=
  if cs.isEmpty then some (some provider, none)
  else
    match cs.dropWhile isSpace with
    | '(' :: cs =>
      if (cs.dropWhile isSpace).take 8 = "worktree".toList ∧
          ((cs.dropWhile isSpace).drop 8).dropWhile isSpace = [')'] then
        some (some provider, some "worktree")
      else none
    | _ => none

/-- `_LEAF_TOKEN_RE`, behind the name. -/
def matchSuffix (cs : List Char) : Option (Option String × Option String) :=
  if cs.isEmpty then some (none, none)
  else
    match cs.dropWhile isSpace with
    | ':' :: cs =>
      if ((cs.dropWhile isSpace).takeWhile isNameChar).isEmpty then none
      else matchMode (String.ofList ((cs.dropWhile isSpace).takeWhile isNameChar))
        ((cs.dropWhile isSpace).dropWhile isNameChar)
    | _ => none

/-- `_LEAF_TOKEN_RE` -/
def matchLeaf (token : List Char) : Option LayoutLeaf :=
  if agentNamePattern (token.takeWhile isNameChar) then
    (matchSuffix (token.dropWhile isNameChar)).map fun p =>
      ⟨String.ofList (token.takeWhile isNameChar), p.1, p.2⟩
  else none

/-! ### The parser -/

inductive LayoutParseError where
  | empty
  | unexpectedEnd
  | unexpected (token : Token)
  | expected (token : Token) (found : Option Token)
  | invalidToken (text : List Char)
  deriving DecidableEq

/-- A node, and the tokens behind it. -/
abbrev Parsed (ts : List Token) := LayoutNode × {rest : List Token // rest.length < ts.length}

def consume (expected : Token) (ts : List Token) :
    Except LayoutParseError {rest : List Token // rest.length < ts.length} :=
  match ts with
  | [] => .error (.expected expected none)
  | token :: rest =>
    if token = expected then .ok ⟨rest, Nat.lt_succ_self _⟩
    else .error (.expected expected (some token))

mutual

/-- `_parse_horizontal` and `_parse_vertical` -/
def parseChain (kind : Kind) (ts : List Token) : Except LayoutParseError (Parsed ts) :=
  match parseOperand kind ts with
  | .error e => .error e
  | .ok (node, rest) =>
    match parseMore kind node rest.1 with
    | .error e => .error e
    | .ok (node, more) => .ok (node, ⟨more.1, more.2.trans_lt rest.2⟩)
termination_by (ts.length, 2 * (3 - kind.precedence) + 1)
decreasing_by
  · exact Prod.Lex.right _ (by omega)
  · exact Prod.Lex.left _ _ rest.2

/-- What the splits of a kind are made of. -/
def parseOperand (kind : Kind) (ts : List Token) : Except LayoutParseError (Parsed ts) :=
  match kind with
  | .horizontal => parseChain .vertical ts
  | .vertical => parsePrimary ts
termination_by (ts.length, 2 * (3 - kind.precedence))
decreasing_by
  · exact Prod.Lex.right _ (by decide)
  · exact Prod.Lex.right _ (by decide)

/-- The loop over the separators of a kind. -/
def parseMore (kind : Kind) (node : LayoutNode) (ts : List Token) :
    Except LayoutParseError (LayoutNode × {rest : List Token // rest.length ≤ ts.length}) :=
  match ts with
  | .separator k :: tokens =>
    if k = kind then
      match parseOperand kind tokens with
      | .error e => .error e
      | .ok (rhs, rest) =>
        match parseMore kind (.branch kind node rhs) rest.1 with
        | .error e => .error e
        | .ok (node, more) =>
          .ok (node, ⟨more.1, (more.2.trans rest.2.le).trans (Nat.le_succ _)⟩)
    else .ok (node, ⟨.separator k :: tokens, le_refl _⟩)
  | ts => .ok (node, ⟨ts, le_refl _⟩)
termination_by (ts.length, 0)
decreasing_by
  · exact Prod.Lex.left _ _ (Nat.lt_succ_self _)
  · exact Prod.Lex.left _ _ (rest.2.trans (Nat.lt_succ_self _))

def parsePrimary (ts : List Token) : Except LayoutParseError (Parsed ts) :=
  match ts with
  | [] => .error .unexpectedEnd
  | .opening :: tokens =>
    match parseChain .horizontal tokens with
    | .error e => .error e
    | .ok (node, rest) =>
      match consume .closing rest.1 with
      | .error e => .error e
      | .ok more => .ok (node, ⟨more.1, (more.2.trans rest.2).trans (Nat.lt_succ_self _)⟩)
  | .leaf text :: tokens =>
    match matchLeaf text with
    | none => .error (.invalidToken text)
    | some leaf => .ok (.leaf leaf, ⟨tokens, Nat.lt_succ_self _⟩)
  | token :: _ => .error (.unexpected token)
termination_by (ts.length, 0)
decreasing_by exact Prod.Lex.left _ _ (Nat.lt_succ_self _)

end

def parseTokens (ts : List Token) : Except LayoutParseError LayoutNode :=
  if ts.isEmpty then .error .empty
  else
    match parseChain .horizontal ts with
    | .error e => .error e
    | .ok (node, ⟨[], _⟩) => .ok node
    | .ok (_, ⟨token :: _, _⟩) => .error (.unexpected token)

def parseLayoutSpec (text : String) : Except LayoutParseError LayoutNode :=
  parseTokens (tokenize text)

end CodexBridge.Layout
