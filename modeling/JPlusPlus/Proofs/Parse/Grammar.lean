import JPlusPlus.Program.Parse.Expr

/-!
# The grammar of programs

Which tokens spell which program, without a word about how they are read. The rules for expressions
are the usual ones for three levels of operators that group to the left; the rules for statements
are those of the language, with two liberties of its own: a token that starts no statement may stand
anywhere between statements, and the end of the tokens closes every body that is still open.

## What follows

The tokens of a program are not marked off from each other, so a rule may have to look at what
follows. A rule that does so relates three things: the tokens it takes, the tokens that follow them
and what they spell. An expression takes every operator after it, a declaration takes a `=` after
its name, and a conditional takes every further branch; these are the only conditions on what
follows, besides that a body without a closing brace has nothing after it.

The rules for expressions themselves need no such condition. Inside of an expression an operand is
followed by an operator or by a closing parenthesis, and the levels alone tell where it ends.
-/

namespace JPlusPlus

/-- The kind of the token that comes next, if there is one. -/
def nextKind (tokens : List Token) : Option Kind := tokens.head?.map Token.kind

@[simp] theorem nextKind_nil : nextKind [] = none := rfl

@[simp] theorem nextKind_cons (t : Token) (us : List Token) : nextKind (t :: us) = some t.kind :=
  rfl

/-! ## Operators -/

/-- The operator that writes an arithmetic operation. -/
def ArithOp.mark : ArithOp → Operator
  | add => .plus
  | sub => .minus
  | mul => .star
  | div => .slash

/-- The operator that writes a comparison. -/
def CompareOp.mark : CompareOp → Operator
  | eq => .eqEq
  | notEq => .notEq
  | less => .less
  | greater => .greater
  | lessEq => .lessEq
  | greaterEq => .greaterEq

/-- The operators that go on with an expression. -/
def exprOperators : List Operator := [.plus, .minus, .dot, .star, .slash]

/-! ## Expressions -/

/-- What the rules for expressions derive: sums of concatenations of products of atoms. -/
inductive ExprSort where
  /-- A sum or a difference, or a concatenation alone. -/
  | sum
  /-- A concatenation, or a product alone. -/
  | concat
  /-- A product or a quotient, or an atom alone. -/
  | product
  /-- A number, a string, a name or an expression in parentheses. -/
  | atom
  deriving DecidableEq, Repr

/-- The tokens spell the expression as one of the given sort. -/
inductive DerivesExpr : ExprSort → List Token → Expr → Prop where
  | sum {us vs : List Token} {t : Token} {op : ArithOp} {left right : Expr} :
      DerivesExpr .sum us left → op = .add ∨ op = .sub → t.kind = .operator op.mark →
      DerivesExpr .concat vs right → DerivesExpr .sum (us ++ t :: vs) (.binary op left right)
  | sumSingle {us : List Token} {e : Expr} : DerivesExpr .concat us e → DerivesExpr .sum us e
  | concat {us vs : List Token} {t : Token} {left right : Expr} :
      DerivesExpr .concat us left → t.kind = .operator .dot → DerivesExpr .product vs right →
      DerivesExpr .concat (us ++ t :: vs) (.concat left right)
  | concatSingle {us : List Token} {e : Expr} : DerivesExpr .product us e → DerivesExpr .concat us e
  | product {us vs : List Token} {t : Token} {op : ArithOp} {left right : Expr} :
      DerivesExpr .product us left → op = .mul ∨ op = .div → t.kind = .operator op.mark →
      DerivesExpr .atom vs right → DerivesExpr .product (us ++ t :: vs) (.binary op left right)
  | productSingle {us : List Token} {e : Expr} : DerivesExpr .atom us e → DerivesExpr .product us e
  | parens {l r : Token} {us : List Token} {e : Expr} :
      l.kind = .delimiter .lparen → DerivesExpr .sum us e → r.kind = .delimiter .rparen →
      DerivesExpr .atom (l :: us ++ [r]) e
  | number {t : Token} : t.kind = .integer → DerivesExpr .atom [t] (.number (normalDigits t.text))
  | string {t : Token} : t.kind = .string → DerivesExpr .atom [t] (.string t.text)
  | ident {t : Token} : t.kind = .ident → DerivesExpr .atom [t] (.ident t.text)

/-- The tokens spell the expression and no operator after them goes on with it. -/
structure DerivesWhole (us rest : List Token) (e : Expr) : Prop where
  /-- The tokens spell the expression. -/
  derives : DerivesExpr .sum us e
  /-- No operator follows. -/
  ends : ∀ o ∈ exprOperators, nextKind rest ≠ some (.operator o)

/-- The tokens spell the condition. -/
inductive DerivesCondition : List Token → List Token → Condition → Prop where
  | mk {us vs rest : List Token} {t : Token} {c : Condition} :
      DerivesWhole us (t :: vs ++ rest) c.left → t.kind = .operator c.op.mark →
      DerivesWhole vs rest c.right → DerivesCondition (us ++ t :: vs) rest c

/-- The tokens spell the condition and open the body under it. -/
inductive DerivesHead : List Token → List Token → Condition → Prop where
  | mk {us rest : List Token} {b : Token} {c : Condition} :
      DerivesCondition us (b :: rest) c → b.kind = .delimiter .lbrace →
      DerivesHead (us ++ [b]) rest c

/-! ## Statements -/

/-- The kinds of the tokens that start a statement. -/
def stmtStarts : List Kind :=
  [.keyword .ye, .keyword .bol, .keyword .agar, .keyword .jabtak, .keyword .keLiye,
    .keyword .break, .keyword .continue, .ident]

mutual

/-- The tokens spell the statement, where `inLoop` says whether a loop encloses it. -/
inductive DerivesStmt : Bool → List Token → List Token → Stmt → Prop where
  | declare {inLoop : Bool} {t name : Token} {rest : List Token} :
      t.kind = .keyword .ye → name.kind = .ident → nextKind rest ≠ some (.operator .assign) →
      DerivesStmt inLoop [t, name] rest (.declare name.text none)
  | declareValue {inLoop : Bool} {t name a : Token} {us rest : List Token} {e : Expr} :
      t.kind = .keyword .ye → name.kind = .ident → a.kind = .operator .assign →
      DerivesWhole us rest e →
      DerivesStmt inLoop (t :: name :: a :: us) rest (.declare name.text (some e))
  | assign {inLoop : Bool} {name a : Token} {us rest : List Token} {e : Expr} :
      name.kind = .ident → a.kind = .operator .assign → DerivesWhole us rest e →
      DerivesStmt inLoop (name :: a :: us) rest (.assign name.text e)
  | print {inLoop : Bool} {t : Token} {us rest : List Token} {e : Expr} :
      t.kind = .keyword .bol → DerivesWhole us rest e →
      DerivesStmt inLoop (t :: us) rest (.print e)
  | branch {inLoop : Bool} {t : Token} {hs bs es rest : List Token} {c : Condition}
      {body : List Stmt} {orElse : ElseChain} :
      t.kind = .keyword .agar → DerivesHead hs (bs ++ (es ++ rest)) c →
      DerivesBlock inLoop bs (es ++ rest) body → DerivesElse inLoop es rest orElse →
      DerivesStmt inLoop (t :: (hs ++ (bs ++ es))) rest (.branch c body orElse)
  | whileLoop {inLoop : Bool} {t : Token} {hs bs rest : List Token} {c : Condition}
      {body : List Stmt} :
      t.kind = .keyword .jabtak → DerivesHead hs (bs ++ rest) c →
      DerivesBlock true bs rest body →
      DerivesStmt inLoop (t :: (hs ++ bs)) rest (.whileLoop c body)
  | forLoop {inLoop : Bool} {t v a k b : Token} {ss es bs rest : List Token} {start stop : Expr}
      {body : List Stmt} :
      t.kind = .keyword .keLiye → v.kind = .ident → a.kind = .operator .assign →
      DerivesWhole ss (k :: (es ++ b :: (bs ++ rest))) start → k.kind = .keyword .tak →
      DerivesWhole es (b :: (bs ++ rest)) stop → b.kind = .delimiter .lbrace →
      DerivesBlock true bs rest body →
      DerivesStmt inLoop (t :: v :: a :: (ss ++ k :: (es ++ b :: bs))) rest
        (.forLoop v.text start stop body)
  | break {t : Token} {rest : List Token} :
      t.kind = .keyword .break → DerivesStmt true [t] rest .break
  | continue {t : Token} {rest : List Token} :
      t.kind = .keyword .continue → DerivesStmt true [t] rest .continue

/-- The tokens spell what a conditional does when its condition fails. -/
inductive DerivesElse : Bool → List Token → List Token → ElseChain → Prop where
  | nothing {inLoop : Bool} {rest : List Token} :
      nextKind rest ≠ some (.keyword .nahiAgar) → nextKind rest ≠ some (.keyword .nahi) →
      DerivesElse inLoop [] rest .nothing
  | otherwise {inLoop : Bool} {t b : Token} {bs rest : List Token} {body : List Stmt} :
      t.kind = .keyword .nahi → b.kind = .delimiter .lbrace → DerivesBlock inLoop bs rest body →
      DerivesElse inLoop (t :: b :: bs) rest (.otherwise body)
  | elseIf {inLoop : Bool} {t : Token} {hs bs es rest : List Token} {c : Condition}
      {body : List Stmt} {orElse : ElseChain} :
      t.kind = .keyword .nahiAgar → DerivesHead hs (bs ++ (es ++ rest)) c →
      DerivesBlock inLoop bs (es ++ rest) body → DerivesElse inLoop es rest orElse →
      DerivesElse inLoop (t :: (hs ++ (bs ++ es))) rest (.elseIf c body orElse)

/-- The tokens after an opening brace spell the statements of a body, up to and including its
closing brace, or to the end of all tokens. -/
inductive DerivesBlock : Bool → List Token → List Token → List Stmt → Prop where
  | closed {inLoop : Bool} {us rest : List Token} {b : Token} {body : List Stmt} :
      DerivesStmts true inLoop us (b :: rest) body → b.kind = .delimiter .rbrace →
      DerivesBlock inLoop (us ++ [b]) rest body
  | unclosed {inLoop : Bool} {us : List Token} {body : List Stmt} :
      DerivesStmts true inLoop us [] body → DerivesBlock inLoop us [] body

/-- The tokens spell the statements, with any tokens between them that start none; in a body a
closing brace is not passed over. -/
inductive DerivesStmts : Bool → Bool → List Token → List Token → List Stmt → Prop where
  | nil {inBody inLoop : Bool} {rest : List Token} : DerivesStmts inBody inLoop [] rest []
  | junk {inBody inLoop : Bool} {t : Token} {us rest : List Token} {body : List Stmt} :
      t.kind ∉ stmtStarts → (inBody = true → t.kind ≠ .delimiter .rbrace) →
      DerivesStmts inBody inLoop us rest body → DerivesStmts inBody inLoop (t :: us) rest body
  | cons {inBody inLoop : Bool} {us vs rest : List Token} {s : Stmt} {body : List Stmt} :
      DerivesStmt inLoop us (vs ++ rest) s → DerivesStmts inBody inLoop vs rest body →
      DerivesStmts inBody inLoop (us ++ vs) rest (s :: body)

end

/-- The tokens spell the program. -/
def Derives (tokens : List Token) (program : Program) : Prop :=
  DerivesStmts false false tokens [] program.body

end JPlusPlus
