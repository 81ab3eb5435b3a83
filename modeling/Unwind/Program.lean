import Unwind.Code

/-!
Programs: the scopes of one compilation unit, and the one that a run begins with.
-/

namespace Unwind

inductive ScopeKind
  | script
  | method
  /-- The body of a block, a lambda or a detached procedure. -/
  | closure
  | moduleBody
  deriving DecidableEq

def ScopeKind.text : ScopeKind → String
  | .script => "script"
  | .method => "method"
  | .closure => "closure"
  | .moduleBody => "module body"

structure Scope where
  id : ScopeId
  name : String
  kind : ScopeKind
  /-- The method that a closure stands in. -/
  lexicalMethod : Option ScopeId
  code : Code
  deriving DecidableEq

def Scope.isClosure (s : Scope) : Bool := s.kind == .closure

structure Program where
  name : String
  scopes : Array Scope
  root : ScopeId
  deriving DecidableEq

def Program.scope? (p : Program) (id : ScopeId) : Option Scope := p.scopes[id.toNat]?

/-! ## Text -/

def Scope.text (s : Scope) : String :=
  s.id.text ++ " " ++ s.name ++ " (" ++ s.kind.text ++ ")"
    ++ (s.lexicalMethod.elim "" fun m => " in " ++ m.text) ++ "\n" ++ s.code.text

/-- The listing of a program, scope by scope. -/
def Program.text (p : Program) : String :=
  "unit " ++ p.name ++ " (root " ++ p.root.text ++ ")\n"
    ++ String.join (p.scopes.toList.map Scope.text)

end Unwind
