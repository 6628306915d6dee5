import NodePath.Expr.Basic

/-!
# Equality of trees

Two trees are equal when they agree in every node and every field.
-/

namespace NodePath

mutual

def Expr.same : Expr → Expr → Bool
  | .missing, .missing => true
  | .literal a, .literal b => a = b
  | .number a, .number b => a = b
  | .boolean a, .boolean b => a = b
  | .reference a, .reference b => a = b
  | .path a, .path b => samePath a b
  | .root, .root => true
  | .absolute a, .absolute b => samePath a b
  | .everywhere a, .everywhere b => samePath a b
  | .call f as, .call g bs => f = g && sameExprs as bs
  | .negate a, .negate b => a.same b
  | .binary op c l r, .binary op' c' l' r' => op = op' && c = c' && l.same l' && r.same r'
  | .filter a ps, .filter b qs => a.same b && sameExprs ps qs
  | .continued a s p, .continued b t q => a.same b && s = t && samePath p q
  | .rootName a, .rootName b => a = b
  | _, _ => false

def sameExprs : List Expr → List Expr → Bool
  | [], [] => true
  | a :: as, b :: bs => a.same b && sameExprs as bs
  | _, _ => false

def samePath : List (Separator × Step) → List (Separator × Step) → Bool
  | [], [] => true
  | (s, a) :: as, (t, b) :: bs => s = t && a.same b && samePath as bs
  | _, _ => false

def Step.same : Step → Step → Bool
  | .mk a t ps, .mk b u qs => a = b && t = u && sameExprs ps qs

end

end NodePath
