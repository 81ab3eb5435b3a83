import Mathlib.Data.Finset.Card
import Mathlib.Order.Interval.Finset.Nat
import Unwind.Proofs.ScopeBuilding

/-!
Fresh labels.

The search for a fresh label begins at the counter and passes over taken numbers.  While the counter
stays below the number of the exit, nothing but placed labels is passed over, and every label that
was handed out is below the counter.  Every number below the counter is placed or was handed out, so
that the counter needs as many calls as the exit's number to reach the exit.
-/

namespace Unwind

open ScopeStep

/-! ## The search -/

/-- The label may not be handed out. -/
def ScopeDraft.Taken (d : ScopeDraft) (l : Label) : Prop := l = .exit ∨ d.isPlaced l

/-- The search from a number on passes over `skips` taken numbers and ends at one that is free. -/
inductive ScopeDraft.Finds (d : ScopeDraft) : UInt32 → Nat → UInt32 → Prop
  | free {n : UInt32} (hfree : ¬ d.Taken ⟨n⟩) : Finds d n 0 n
  | skip {n found : UInt32} {skips : Nat} (htaken : d.Taken ⟨n⟩)
      (hrest : Finds d (n + 1) skips found) : Finds d n (skips + 1) found

/-- The search from the counter on, ended or not, looks at the number. -/
inductive ScopeDraft.LooksAt (d : ScopeDraft) : UInt32 → Prop
  | first : LooksAt d d.nextLabel
  | next {n : UInt32} (hlook : LooksAt d n) (htaken : d.Taken ⟨n⟩) : LooksAt d (n + 1)

/-- The counter, which moves past each number that the search looks at, stays below the exit. -/
def ScopeDraft.SearchesBelowExit (d : ScopeDraft) : Prop :=
  ∀ n, d.LooksAt n → n.toNat + 1 < Label.exit.toNat

/-- The labels from one number up to another, this one not included, are all in the list. -/
def Label.Cover (ls : List Label) (start stop : Nat) : Prop :=
  ∀ l : Label, start ≤ l.toNat → l.toNat < stop → l ∈ ls

theorem toNat_succ_of_below {n : UInt32} (hbelow : n.toNat + 1 < Label.exit.toNat) :
    (n + 1).toNat = n.toNat + 1 := by
  have hexit : Label.exit.toNat = 4294967295 := rfl
  rw [UInt32.toNat_add, UInt32.toNat_one]
  omega

/-- Different numbers are different labels, so that a list covers no more than its length. -/
theorem Label.Cover.le_card {ls : List Label} {start : Nat} {stop : UInt32}
    (hcover : Cover ls start stop.toNat) : stop.toNat ≤ start + ls.toFinset.card := by
  have hnumbers : Finset.Ico start stop.toNat ⊆ ls.toFinset.image Label.toNat := by
    intro k hk
    obtain ⟨hstart, hlt⟩ := Finset.mem_Ico.mp hk
    have hnumber : (⟨UInt32.ofNat k⟩ : Label).toNat = k :=
      UInt32.toNat_ofNat_of_lt' (Nat.lt_trans hlt stop.toNat_lt)
    refine Finset.mem_image.mpr ⟨⟨UInt32.ofNat k⟩, ?_, hnumber⟩
    apply List.mem_toFinset.mpr
    apply hcover
    · rwa [hnumber]
    · rwa [hnumber]
  have hcard : stop.toNat - start ≤ ls.toFinset.card := by
    calc
      stop.toNat - start = (Finset.Ico start stop.toNat).card := (Nat.card_Ico _ _).symm
      _ ≤ (ls.toFinset.image Label.toNat).card := Finset.card_le_card hnumbers
      _ ≤ ls.toFinset.card := Finset.card_image_le
  omega

namespace ScopeDraft

variable {d : ScopeDraft} {n found : UInt32} {skips : Nat}

theorem isPlaced_iff {l : Label} : d.isPlaced l ↔ l ∈ d.placed.map Prod.fst := by
  simp [isPlaced, List.mem_map]

theorem Finds.not_taken (hfinds : d.Finds n skips found) : ¬ d.Taken ⟨found⟩ := by
  induction hfinds with
  | free hfree => exact hfree
  | skip _ _ ih => exact ih

theorem Finds.looksAt (hfinds : d.Finds n skips found) (hlook : d.LooksAt n) :
    d.LooksAt found := by
  induction hfinds with
  | free _ => exact hlook
  | skip htaken _ ih => exact ih (.next hlook htaken)

/-- A search that ends is carried out by as many turns as it has taken numbers to pass over. -/
theorem Finds.freeNumber_eq (hfinds : d.Finds n skips found) {turns : Nat}
    (hturns : skips ≤ turns) : d.freeNumber turns n = found := by
  induction hfinds generalizing turns with
  | free hfree =>
      cases turns with
      | zero => rfl
      | succ turns => exact if_neg hfree
  | skip htaken _ ih =>
      cases turns with
      | zero => exact absurd hturns (Nat.not_succ_le_zero _)
      | succ turns =>
          rw [freeNumber]
          exact (if_pos htaken).trans (ih (Nat.le_of_succ_le_succ hturns))

/-- What is looked at has been reached over taken labels only: if those are known, all labels
before it are. -/
theorem LooksAt.cover {known : List Label} {start : Nat}
    (hcounter : Label.Cover known start d.nextLabel.toNat)
    (hplaced : ∀ l, d.isPlaced l → l ∈ known)
    (hbelow : ∀ m, d.LooksAt m → Label.Cover known start m.toNat →
      m.toNat + 1 < Label.exit.toNat)
    (hlook : d.LooksAt n) : Label.Cover known start n.toNat := by
  induction hlook with
  | first => exact hcounter
  | @next n hlook htaken ih =>
      have hn := hbelow n hlook ih
      intro l hstart hlt
      rw [toNat_succ_of_below hn] at hlt
      rcases Nat.lt_succ_iff_lt_or_eq.mp hlt with hbefore | hsame
      · exact ih l hstart hbefore
      · obtain rfl : l = ⟨n⟩ := Label.toNat_inj hsame
        rcases htaken with hexit | htaken
        · rw [hexit] at hsame
          omega
        · exact hplaced _ htaken

section Below

variable (hbelow : d.SearchesBelowExit)

include hbelow

theorem LooksAt.counter_le (hlook : d.LooksAt n) : d.nextLabel.toNat ≤ n.toNat := by
  induction hlook with
  | first => exact Nat.le_refl _
  | @next n hlook _ ih =>
      rw [toNat_succ_of_below (hbelow n hlook)]
      exact Nat.le_succ_of_le ih

theorem Finds.toNat_eq (hfinds : d.Finds n skips found) (hlook : d.LooksAt n) :
    found.toNat = n.toNat + skips := by
  induction hfinds with
  | free _ => rfl
  | @skip n found skips htaken _ ih =>
      rw [ih (.next hlook htaken), toNat_succ_of_below (hbelow n hlook)]
      omega

/-- The search ends, since the counter cannot rise for ever. -/
theorem LooksAt.exists_finds (hlook : d.LooksAt n) : ∃ skips found, d.Finds n skips found := by
  -- on the distance from the exit
  induction hgap : Label.exit.toNat - n.toNat generalizing n with
  | zero =>
      have hn := hbelow n hlook
      omega
  | succ gap ih =>
      by_cases htaken : d.Taken ⟨n⟩
      · have hnext := toNat_succ_of_below (hbelow n hlook)
        obtain ⟨skips, found, hfinds⟩ := ih (.next hlook htaken) (by omega)
        exact ⟨skips + 1, found, .skip htaken hfinds⟩
      · exact ⟨0, n, .free htaken⟩

/-- The numbers that are passed over are placed labels. -/
theorem Finds.skips_le (hfinds : d.Finds d.nextLabel skips found) :
    skips ≤ (d.placed.map Prod.fst).toFinset.card := by
  have hlook := hfinds.looksAt .first
  have hcover : Label.Cover (d.placed.map Prod.fst) d.nextLabel.toNat found.toNat := by
    refine hlook.cover ?_ (fun l => isPlaced_iff.mp) (fun m hm _ => hbelow m hm)
    intro l hstart hlt
    exact absurd hlt (Nat.not_lt_of_le hstart)
  have hcard := hcover.le_card
  rw [hfinds.toNat_eq hbelow .first] at hcard
  omega

/-- The bound on the turns of the search is never reached. -/
theorem exists_newLabel_eq : ∃ skips found, d.Finds d.nextLabel skips found ∧
    d.newLabel = (⟨found⟩, { d with nextLabel := found + 1 }) := by
  obtain ⟨skips, found, hfinds⟩ := LooksAt.first.exists_finds hbelow
  have hskips : skips ≤ d.placed.length + 1 := by
    calc
      skips ≤ (d.placed.map Prod.fst).toFinset.card := hfinds.skips_le hbelow
      _ ≤ (d.placed.map Prod.fst).length := List.toFinset_card_le _
      _ = d.placed.length := List.length_map _
      _ ≤ d.placed.length + 1 := Nat.le_succ _
  refine ⟨skips, found, hfinds, ?_⟩
  simp only [newLabel, hfinds.freeNumber_eq hskips]

theorem newLabel_looksAt : d.LooksAt d.newLabel.1.number := by
  obtain ⟨skips, found, hfinds, hnew⟩ := exists_newLabel_eq hbelow
  rw [hnew]
  exact hfinds.looksAt .first

theorem newLabel_counter : d.newLabel.2.nextLabel.toNat = d.newLabel.1.toNat + 1 :=
  toNat_succ_of_below (hbelow _ (newLabel_looksAt hbelow))

end Below

/-- The counter stays below the exit if the labels below it and the placed ones are few. -/
theorem searchesBelowExit_of_cover {known : List Label}
    (hcounter : Label.Cover known 0 d.nextLabel.toNat) (hplaced : ∀ l, d.isPlaced l → l ∈ known)
    (hfew : known.length + 1 < Label.exit.toNat) : d.SearchesBelowExit := by
  have hbelow (m : UInt32) (hcover : Label.Cover known 0 m.toNat) :
      m.toNat + 1 < Label.exit.toNat := by
    have hcard := hcover.le_card
    have hlength := known.toFinset_card_le
    omega
  intro n hlook
  exact hbelow n (hlook.cover hcounter hplaced fun m _ => hbelow m)

end ScopeDraft

/-! ## Sequences of calls -/

/-- A call on a scope under construction. -/
inductive ScopeCall
  | newLabel
  | step (s : ScopeStep)

def ScopeCall.step? : ScopeCall → Option ScopeStep
  | .newLabel => none
  | .step s => some s

/-- The steps among the calls, in order. -/
def ScopeCall.steps (calls : List ScopeCall) : List ScopeStep := calls.filterMap step?

/-- Steps leave the counter alone. -/
theorem ScopeDraft.step_nextLabel (d : ScopeDraft) (s : ScopeStep) :
    (d.step s).nextLabel = d.nextLabel := by
  cases s <;> rfl

namespace ScopeDraft

def call (d : ScopeDraft) : ScopeCall → ScopeDraft
  | .newLabel => d.newLabel.2
  | .step s => d.step s

/-- The scope that calls draft, from the empty one. -/
def ofCalls (calls : List ScopeCall) : ScopeDraft := calls.foldl call .empty

/-- The labels that calls return, in order. -/
def handedOut (d : ScopeDraft) : List ScopeCall → List Label
  | [] => []
  | .newLabel :: rest => d.newLabel.1 :: d.newLabel.2.handedOut rest
  | .step s :: rest => (d.step s).handedOut rest

end ScopeDraft

namespace ScopeCall

open ScopeDraft

/-- In all calls for a label, the counter stays below the exit. -/
def CountsBelowExit (calls : List ScopeCall) : Prop :=
  ∀ before after, calls = before ++ .newLabel :: after → (ofCalls before).SearchesBelowExit

/-- The labels that the calls return, from the empty scope. -/
def returned (calls : List ScopeCall) : List Label := ScopeDraft.empty.handedOut calls

/-- The labels that the calls return or place. -/
def known (calls : List ScopeCall) : List Label := returned calls ++ labels (steps calls)

variable (calls : List ScopeCall)

theorem ofCalls_concat (c : ScopeCall) : ofCalls (calls ++ [c]) = (ofCalls calls).call c := by
  simp [ofCalls]

theorem steps_newLabel : steps (calls ++ [.newLabel]) = steps calls := by
  simp [steps, step?]

theorem steps_step (s : ScopeStep) : steps (calls ++ [.step s]) = steps calls ++ [s] := by
  simp [steps, step?]

theorem handedOut_append (d : ScopeDraft) (more : List ScopeCall) :
    d.handedOut (calls ++ more) = d.handedOut calls ++ (calls.foldl call d).handedOut more := by
  induction calls generalizing d with
  | nil => rfl
  | cons c rest ih => cases c <;> simp [handedOut, call, ih]

theorem returned_newLabel :
    returned (calls ++ [.newLabel]) = returned calls ++ [(ofCalls calls).newLabel.1] :=
  handedOut_append calls .empty [.newLabel]

theorem returned_step (s : ScopeStep) : returned (calls ++ [.step s]) = returned calls := by
  simp [returned, handedOut_append, handedOut]

/-- The labels placed so far are those of the steps, whatever labels were handed out. -/
theorem ofCalls_labels : (ofCalls calls).placed.map Prod.fst = labels (steps calls) := by
  induction calls using List.reverseRecOn with
  | nil => rfl
  | append_singleton calls c ih =>
      rw [ofCalls_concat]
      cases c with
      | newLabel => rwa [steps_newLabel]
      | step s => rw [steps_step, labels_concat, call, step_labels, ih]

/-- A call returns one label or places at most one. -/
theorem known_length_le : (known calls).length ≤ calls.length := by
  induction calls using List.reverseRecOn with
  | nil => exact Nat.le_refl _
  | append_singleton calls c ih =>
      rw [known, List.length_append] at ih ⊢
      cases c with
      | newLabel =>
          simp only [returned_newLabel, steps_newLabel, List.length_append, List.length_singleton]
          omega
      | step s =>
          have hone : s.label?.toList.length ≤ 1 := Option.length_toList_le
          simp only [returned_step, steps_step, labels_concat, List.length_append,
            List.length_singleton]
          omega

variable {calls}

theorem isPlaced_ofCalls {l : Label} :
    (ofCalls calls).isPlaced l ↔ .place l ∈ steps calls := by
  rw [isPlaced_iff, ofCalls_labels, mem_labels]

theorem isPlaced_known (l : Label) (hl : (ofCalls calls).isPlaced l) :
    l ∈ known calls :=
  List.mem_append_right _ (mem_labels.mpr (isPlaced_ofCalls.mp hl))

theorem CountsBelowExit.of_append {more : List ScopeCall}
    (hbelow : CountsBelowExit (calls ++ more)) : CountsBelowExit calls := by
  rintro before after rfl
  exact hbelow before (after ++ more) (by simp)

/-- Labels are handed out below the counter. -/
theorem CountsBelowExit.lt_counter (hbelow : CountsBelowExit calls) :
    ∀ l ∈ returned calls, l.toNat < (ofCalls calls).nextLabel.toNat := by
  induction calls using List.reverseRecOn with
  | nil => simp [returned, handedOut]
  | append_singleton calls c ih =>
      have hlt := ih hbelow.of_append
      intro l hl
      rw [ofCalls_concat]
      cases c with
      | step s =>
          rw [returned_step] at hl
          rw [call, step_nextLabel]
          exact hlt l hl
      | newLabel =>
          have hcall : (ofCalls calls).SearchesBelowExit := hbelow calls [] rfl
          have hfound := (newLabel_looksAt hcall).counter_le hcall
          have hcounter := newLabel_counter hcall
          rw [returned_newLabel, List.mem_append, List.mem_singleton] at hl
          rw [call, hcounter, Nat.lt_succ_iff]
          rcases hl with hl | rfl
          · exact Nat.le_trans (Nat.le_of_lt (hlt l hl)) hfound
          · exact Nat.le_refl _

/-- The counter passes over no number that is neither placed nor handed out. -/
theorem cover_counter (hshort : calls.length < Label.exit.toNat) :
    Label.Cover (known calls) 0 (ofCalls calls).nextLabel.toNat := by
  induction calls using List.reverseRecOn with
  | nil =>
      intro l _ hlt
      exact absurd hlt (Nat.not_lt_zero _)
  | append_singleton calls c ih =>
      rw [List.length_append, List.length_singleton] at hshort
      have hcounter := ih (Nat.lt_of_succ_lt hshort)
      rw [ofCalls_concat]
      cases c with
      | step s =>
          rw [known, returned_step, steps_step, labels_concat, call, step_nextLabel,
            ← List.append_assoc]
          intro l hstart hlt
          exact List.mem_append_left _ (hcounter l hstart hlt)
      | newLabel =>
          have hlength := known_length_le calls
          have hsearch := searchesBelowExit_of_cover hcounter isPlaced_known (by omega)
          have hfound := (newLabel_looksAt hsearch).cover hcounter isPlaced_known
            fun m hm _ => hsearch m hm
          rw [known, returned_newLabel, steps_newLabel, call, newLabel_counter hsearch]
          intro l hstart hlt
          simp only [List.mem_append, List.mem_singleton]
          rcases Nat.lt_succ_iff_lt_or_eq.mp hlt with hbefore | hsame
          · rcases List.mem_append.mp (hfound l hstart hbefore) with hreturned | hplaced
            · exact Or.inl (Or.inl hreturned)
            · exact Or.inr hplaced
          · exact Or.inl (Or.inr (Label.toNat_inj hsame))

/-- The exit is out of reach of so few calls. -/
theorem countsBelowExit_of_length_lt (hshort : calls.length < Label.exit.toNat) :
    CountsBelowExit calls := by
  rintro before after rfl
  rw [List.length_append, List.length_cons] at hshort
  have hcounter := @cover_counter before (by omega)
  have hlength := known_length_le before
  exact searchesBelowExit_of_cover hcounter isPlaced_known (by omega)

end ScopeCall

open ScopeDraft ScopeCall

/-- A fresh label is not the exit, and it has been neither placed nor handed out before.  The search
for it ends, and it passes over at most as many numbers as labels have been placed. -/
theorem fresh_labels {calls : List ScopeCall} (hbelow : CountsBelowExit calls) :
    ∀ before after, calls = before ++ .newLabel :: after →
      ∃ skips found, (ofCalls before).Finds (ofCalls before).nextLabel skips found ∧
        skips ≤ (labels (steps before)).toFinset.card ∧
        (ofCalls before).newLabel = (⟨found⟩, { ofCalls before with nextLabel := found + 1 }) ∧
        ⟨found⟩ ≠ Label.exit ∧ .place ⟨found⟩ ∉ steps before ∧ ⟨found⟩ ∉ returned before := by
  rintro before after rfl
  have hsearch := hbelow before after rfl
  obtain ⟨skips, found, hfinds, hnew⟩ := exists_newLabel_eq hsearch
  have hskips := hfinds.skips_le hsearch
  rw [ofCalls_labels] at hskips
  have hfree := hfinds.not_taken
  refine ⟨skips, found, hfinds, hskips, hnew, ?_, ?_, ?_⟩
  · intro hexit
    exact hfree (Or.inl hexit)
  · intro hplaced
    exact hfree (Or.inr (isPlaced_ofCalls.mpr hplaced))
  · intro hreturned
    have hlt : found.toNat < (ofCalls before).nextLabel.toNat :=
      hbelow.of_append.lt_counter _ hreturned
    have hle := (hfinds.looksAt .first).counter_le hsearch
    exact Nat.not_lt_of_le hle hlt

namespace FreshLabelsWitness

/-- A label is handed out, and then labels ahead of the counter are placed, one of them twice. -/
def placing : List ScopeCall :=
  [.step (.place ⟨0⟩), .newLabel, .step (.emit .clearPending), .step (.place ⟨3⟩),
    .step (.place ⟨2⟩), .step (.place ⟨3⟩), .step (.region ⟨⟨0⟩, ⟨1⟩, none, none⟩)]

/-- The numbers 2 and 3 are passed over. -/
theorem fresh_labels_placing :
    CountsBelowExit (placing ++ [.newLabel]) ∧ returned placing = [⟨1⟩] ∧
      (labels (steps placing)).toFinset.card = 3 ∧
      ∃ skips, (ofCalls placing).Finds 2 skips 4 ∧ skips ≤ 3 ∧
        (ofCalls placing).newLabel = (⟨4⟩, { ofCalls placing with nextLabel := 5 }) ∧
        ⟨4⟩ ≠ Label.exit ∧ .place ⟨4⟩ ∉ steps placing ∧ ⟨4⟩ ∉ returned placing := by
  have hbelow : CountsBelowExit (placing ++ [.newLabel]) := countsBelowExit_of_length_lt (by decide)
  obtain ⟨skips, found, hfinds, hskips, hnew, hfresh⟩ := fresh_labels hbelow placing [] rfl
  obtain rfl : found = 4 := congrArg (fun label => label.1.number) hnew.symm
  exact ⟨hbelow, by decide, by decide, skips, hfinds, hskips, hnew, hfresh⟩

end FreshLabelsWitness

end Unwind
