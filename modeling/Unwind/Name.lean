/-!
The names that code uses: scopes of a program, labels of a scope, and registers of a frame.
-/

namespace Unwind

/-- The identity of a scope inside its program: its position among the scopes. -/
structure ScopeId where
  index : UInt32
  deriving DecidableEq

def ScopeId.ofNat (n : Nat) : ScopeId := ⟨UInt32.ofNat n⟩

def ScopeId.toNat (id : ScopeId) : Nat := id.index.toNat

theorem ScopeId.toNat_inj {id other : ScopeId} (hsame : id.toNat = other.toNat) : id = other :=
  congrArg ScopeId.mk (UInt32.toNat_inj.mp hsame)

def ScopeId.text (id : ScopeId) : String := "scope#" ++ toString id.toNat

/-- A branch target, local to its scope. -/
structure Label where
  number : UInt32
  deriving DecidableEq

/-- The label past the last instruction: a jump there ends the scope. -/
def Label.exit : Label := ⟨4294967295⟩

def Label.toNat (label : Label) : Nat := label.number.toNat

theorem Label.toNat_inj {l m : Label} (hsame : l.toNat = m.toNat) : l = m :=
  congrArg Label.mk (UInt32.toNat_inj.mp hsame)

def Label.text (label : Label) : String :=
  if label = .exit then "EXIT" else "L" ++ toString label.toNat

/-- A register, local to its frame. -/
structure Reg where
  index : UInt32
  deriving DecidableEq

def Reg.toNat (reg : Reg) : Nat := reg.index.toNat

def Reg.text (reg : Reg) : String := "r" ++ toString reg.toNat

end Unwind
