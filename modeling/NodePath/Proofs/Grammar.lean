import NodePath.Expr.Parser

/-!
# The grammar of expressions

The grammar is stated apart from the reader, as derivations of trees from lists of tokens. It has
nine levels of binary operators, each recursive on its left, and productions for what stands below
them. A derivation also has a nesting: the largest number of groups, predicates, arguments and minus
signs that one primary of it lies inside of. Nothing here says how derivations are found.
-/

namespace NodePath

open NodePath.Text NodePath.Number

/-- The token kind and the operator of each binary level, the loosest level first. -/
def operatorAt : Nat → Option (Kind × Operator)
  | 1 => some (.streamWord, .stream)
  | 2 => some (.intersectWord, .intersect)
  | 3 => some (.bar, .union)
  | 4 => some (.minus, .subtract)
  | 5 => some (.plus, .add)
  | 6 => some (.comparison, .compare)
  | 7 => some (.equals, .equals)
  | 8 => some (.andWord, .and)
  | 9 => some (.orWord, .or)
  | _ => none

/-- The reserved word of a truth value. -/
def truthWord (value : Bool) : Kind := if value then .trueWord else .falseWord

/-- The built-in function of a truth value. -/
def truthCall (value : Bool) : Builtin := if value then .trueCall else .falseCall

/-- The symbols that the grammar has productions for. Level 10 is above all operators. -/
inductive Symbol where
  | name
  | test
  | predicates
  | step
  | furtherSteps
  | path
  | arguments
  | source
  | primary
  | unary
  | level (n : Nat)

/-- What a sentence of a symbol denotes. -/
def Symbol.Value : Symbol → Type
  | .name => QName
  | .test => Test
  | .predicates => List Expr
  | .step => Step
  | .furtherSteps => Path
  | .path => Path
  | .arguments => List Expr
  | .source => Expr
  | .primary => Expr
  | .unary => Expr
  | .level _ => Expr

/-- `Derives s d ts v`: the tokens `ts` derive `v` from the symbol `s`, and no primary in the
derivation lies inside more than `d` groups, predicates, arguments and minus signs, but some primary
lies inside that many. A numeral that is out of range derives nothing. -/
inductive Derives : (s : Symbol) → Nat → List Token → s.Value → Prop where
  | bareName {t : Token} : t.kind = .name → Derives .name 0 [t] (QName.mk [] t.lexeme)
  | spacedName {t c u : Token} : t.kind = .name → c.kind = .colon → u.kind = .name →
      Derives .name 0 [t, c, u] (QName.mk t.lexeme u.lexeme)
  | anyName {t : Token} : t.kind = .star → Derives .test 0 [t] (Test.name .any)
  | anyNameIn {t c s : Token} : t.kind = .name → c.kind = .colon → s.kind = .star →
      Derives .test 0 [t, c, s] (Test.name (.anyIn t.lexeme))
  | oneName {ts : List Token} {q : QName} : Derives .name 0 ts q →
      Derives .test 0 ts (Test.name (.qualified q))
  | typeTest {t l r : Token} : t.kind = .nodeType → l.kind = .leftParen → r.kind = .rightParen →
      Derives .test 0 [t, l, r] (Test.nodeType t.lexeme none)
  | typeTestOf {t l a r : Token} : t.kind = .nodeType → l.kind = .leftParen →
      a.kind = .stringLiteral → r.kind = .rightParen →
      Derives .test 0 [t, l, a, r] (Test.nodeType t.lexeme (some a.lexeme))
  | noPredicates : Derives .predicates 0 [] ([] : List Expr)
  | predicate {l r : Token} {ts us : List Token} {d d' : Nat} {e : Expr} {ps : List Expr} :
      l.kind = .leftBracket → Derives (.level 1) d ts e → r.kind = .rightBracket →
      Derives .predicates d' us ps →
      Derives .predicates (max (d + 1) d') (l :: (ts ++ r :: us)) (e :: ps : List Expr)
  | selfStep {t : Token} : t.kind = .dot → Derives .step 0 [t] (Step.sign .self)
  | parentStep {t : Token} : t.kind = .doubleDot → Derives .step 0 [t] (Step.sign .parent)
  | plainStep {ts us : List Token} {d : Nat} {t : Test} {ps : List Expr} :
      Derives .test 0 ts t → Derives .predicates d us ps →
      Derives .step d (ts ++ us) (Step.mk none t ps)
  | axisStep {a c : Token} {ts us : List Token} {d : Nat} {t : Test} {ps : List Expr} :
      a.kind = .axisName → c.kind = .doubleColon →
      Derives .test 0 ts t → Derives .predicates d us ps →
      Derives .step d (a :: c :: (ts ++ us)) (Step.mk (some ⟨a.lexeme, false⟩) t ps)
  | attributeStep {a : Token} {ts us : List Token} {d : Nat} {t : Test} {ps : List Expr} :
      a.kind = .atSign → Derives .test 0 ts t → Derives .predicates d us ps →
      Derives .step d (a :: (ts ++ us)) (Step.mk (some ⟨utf8 "attribute", true⟩) t ps)
  | noFurtherSteps : Derives .furtherSteps 0 [] ([] : Path)
  | furtherStep {t : Token} {ts us : List Token} {d d' : Nat} {separator : Separator} {s : Step}
      {p : Path} : separatorOf t.kind = some separator → Derives .step d ts s →
      Derives .furtherSteps d' us p →
      Derives .furtherSteps (max d d') (t :: (ts ++ us)) ((separator, s) :: p : Path)
  | steps {ts us : List Token} {d d' : Nat} {s : Step} {p : Path} :
      Derives .step d ts s → Derives .furtherSteps d' us p →
      Derives .path (max d d') (ts ++ us) ((.absent, s) :: p : Path)
  | lastArgument {ts : List Token} {d : Nat} {e : Expr} :
      Derives (.level 1) d ts e → Derives .arguments (d + 1) ts ([e] : List Expr)
  | argument {c : Token} {ts us : List Token} {d d' : Nat} {e : Expr} {es : List Expr} :
      Derives (.level 1) d ts e → c.kind = .comma → Derives .arguments d' us es →
      Derives .arguments (max (d + 1) d') (ts ++ c :: us) (e :: es : List Expr)
  | literal {t : Token} : t.kind = .stringLiteral → Derives .source 0 [t] (Expr.literal t.lexeme)
  | integer {t : Token} {i : Int} : t.kind = .integer → integer? t.lexeme = some i →
      Derives .source 0 [t] (Expr.number (.ofInt i))
  | float {t : Token} {x : Binary64} : t.kind = .float → float? t.lexeme = some x →
      Derives .source 0 [t] (Expr.number (.ofFloat x))
  | truth {t : Token} {value : Bool} : t.kind = truthWord value →
      Derives .source 0 [t] (Expr.boolean value)
  | builtinCall {t l r : Token} {value : Bool} : t.kind = truthWord value → l.kind = .leftParen →
      r.kind = .rightParen → Derives .source 0 [t, l, r] (Expr.call ⟨truthCall value, []⟩ [])
  | reference {t : Token} {ts : List Token} {q : QName} : t.kind = .dollar → Derives .name 0 ts q →
      Derives .source 0 (t :: ts) (Expr.reference q)
  | emptyCall {f l r : Token} : f.kind = .functionName → l.kind = .leftParen →
      r.kind = .rightParen → Derives .source 0 [f, l, r] (Expr.call ⟨.absent, f.lexeme⟩ [])
  | call {f l r : Token} {ts : List Token} {d : Nat} {es : List Expr} :
      f.kind = .functionName → l.kind = .leftParen → Derives .arguments d ts es →
      r.kind = .rightParen →
      Derives .source d (f :: l :: (ts ++ [r])) (Expr.call ⟨.absent, f.lexeme⟩ es)
  | group {l r : Token} {ts : List Token} {d : Nat} {e : Expr} : l.kind = .leftParen →
      Derives (.level 1) d ts e → r.kind = .rightParen →
      Derives .source (d + 1) (l :: (ts ++ [r])) e
  | root {t : Token} : t.kind = .slash → Derives .primary 0 [t] Expr.root
  | absolute {t : Token} {ts : List Token} {d : Nat} {p : Path} : t.kind = .slash →
      Derives .path d ts p → Derives .primary d (t :: ts) (Expr.absolute p)
  | everywhere {t : Token} {ts : List Token} {d : Nat} {p : Path} : t.kind = .doubleSlash →
      Derives .path d ts p → Derives .primary d (t :: ts) (Expr.everywhere p)
  | relative {ts : List Token} {d : Nat} {p : Path} : Derives .path d ts p →
      Derives .primary d ts (Expr.path p)
  | filtered {ts us : List Token} {d d' : Nat} {e : Expr} {ps : List Expr} :
      Derives .source d ts e → Derives .predicates d' us ps →
      Derives .primary (max d d') (ts ++ us) (narrowed e ps)
  | continued {t : Token} {ts us vs : List Token} {d d' d'' : Nat} {e : Expr} {ps : List Expr}
      {separator : Separator} {p : Path} :
      Derives .source d ts e → Derives .predicates d' us ps →
      separatorOf t.kind = some separator → Derives .path d'' vs p →
      Derives .primary (max d (max d' d'')) (ts ++ (us ++ t :: vs))
        (Expr.continued (narrowed e ps) separator p)
  | unsigned {ts : List Token} {d : Nat} {e : Expr} : Derives .primary d ts e →
      Derives .unary d ts e
  | negated {t : Token} {ts : List Token} {d : Nat} {e : Expr} : t.kind = .minus →
      Derives .unary d ts e → Derives .unary (d + 1) (t :: ts) (Expr.negate e)
  | operand {ts : List Token} {d : Nat} {e : Expr} : Derives .unary d ts e →
      Derives (.level 10) d ts e
  | tighter {n : Nat} {ts : List Token} {d : Nat} {e : Expr} : Derives (.level (n + 1)) d ts e →
      Derives (.level n) d ts e
  | binary {n : Nat} {t : Token} {ts us : List Token} {d d' : Nat} {op : Operator} {l r : Expr} :
      Derives (.level n) d ts l → operatorAt n = some (t.kind, op) →
      Derives (.level (n + 1)) d' us r →
      Derives (.level n) (max d d') (ts ++ t :: us) (Expr.binary op t.comparison l r)

/-- A list of tokens denotes an expression with a nesting when the loosest level derives it. -/
def Denotes (nesting : Nat) (ts : List Token) (e : Expr) : Prop := Derives (.level 1) nesting ts e

end NodePath
