import Unwind.Draft

/-!
Listings: descriptions of whole programs.

The scopes are listed in order, so that the position of a scope is its identity.  The code of a
scope is a list of instructions with label markers between them, and its regions name labels.
-/

namespace Unwind

/-- An element of a scope's code. -/
inductive CodeItem
  | label (l : Label)
  | instr (i : Instr)
  deriving DecidableEq

structure ScopeEntry where
  name : String
  kind : ScopeKind
  lexicalMethod : Option ScopeId
  code : List CodeItem
  regions : List RegionDraft
  deriving DecidableEq

structure Listing where
  name : String
  root : UInt32
  scopes : List ScopeEntry
  deriving DecidableEq

/-! ## Assembling a program -/

/-- Adds an element of code to a scope. -/
def ScopeDraft.addItem (d : ScopeDraft) : CodeItem → ScopeDraft
  | .label l => d.place l
  | .instr i => (d.emit i).2

/-- Raises go to the ensure code of a region that has no rescue code. -/
def RegionDraft.withRescue (r : RegionDraft) : RegionDraft :=
  { r with rescue := r.rescue <|> r.ensure }

def ScopeEntry.draft (s : ScopeEntry) : ScopeDraft :=
  (s.regions.map RegionDraft.withRescue).foldl ScopeDraft.region
    (s.code.foldl ScopeDraft.addItem ScopeDraft.empty)

/-- Declares a listed scope; only a closure stands in a method. -/
def ProgramDraft.declareEntry (d : ProgramDraft) (s : ScopeEntry) : ScopeId × ProgramDraft :=
  match s.kind, s.lexicalMethod with
  | .closure, some method => d.declareClosure s.name method
  | kind, _ => d.declare s.name kind

/-- Declares listed scopes in order; gives the identity of each. -/
def ProgramDraft.declareAll (d : ProgramDraft) : List ScopeEntry → List ScopeId × ProgramDraft
  | [] => ([], d)
  | s :: rest =>
      let (id, d) := d.declareEntry s
      let (ids, d) := d.declareAll rest
      (id :: ids, d)

/-- Defines declared scopes in order. -/
def ProgramDraft.defineAll (d : ProgramDraft) :
    List (ScopeId × ScopeEntry) → Except BuildError ProgramDraft
  | [] => .ok d
  | (id, s) :: rest =>
      match d.define id s.draft with
      | .error e => .error e
      | .ok d => d.defineAll rest

/-- The program that a listing describes: all scopes are declared, then each is defined, and
then the program is finished. -/
def Listing.assemble (l : Listing) : Except BuildError Program := do
  let (ids, draft) := ({ name := l.name } : ProgramDraft).declareAll l.scopes
  let draft ← draft.defineAll (ids.zip l.scopes)
  draft.finish ⟨l.root⟩

end Unwind
