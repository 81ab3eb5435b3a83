import Unwind.Proofs.Built

/-!
Encodings are decoded to what they encode.

A member that holds the default of its field may be left out of an encoding.  Values, operands and
instructions are recovered from their JSON whichever of these members are left out.
-/

namespace Unwind

/-! ## Members left out -/

/-- The names of members that may be null. -/
def Json.nullNames : List String :=
  ["reason", "exit_value", "method", "dst", "lexical_method", "rescue", "ensure"]

/-- The names of members that may be an empty list. -/
def Json.emptyNames : List String := ["backtrace", "args", "regions"]

/-- The names of members that may be left out. -/
def Json.defaultNames : List String := nullNames ++ emptyNames ++ ["root"]

/-- The member holds what is meant when it is left out. -/
inductive Json.Default : String → Json → Prop
  | null {name : String} (hname : name ∈ nullNames) : Json.Default name .null
  | empty {name : String} (hname : name ∈ emptyNames) : Json.Default name (.list [])
  | zero : Json.Default "root" (.ofWord 0)

mutual

/-- The second value is the first one with some members left out that hold their default. -/
inductive Json.Abridged : Json → Json → Prop
  | null : Json.Abridged .null .null
  | bool (b : Bool) : Json.Abridged (.bool b) (.bool b)
  | number (n : Numeral) : Json.Abridged (.number n) (.number n)
  | text (s : String) : Json.Abridged (.text s) (.text s)
  | list {items short : List Json} (hitems : Json.ItemsAbridged items short) :
      Json.Abridged (.list items) (.list short)
  | record {members short : List (String × Json)} (hmembers : Json.MembersAbridged members short) :
      Json.Abridged (.record members) (.record short)

inductive Json.ItemsAbridged : List Json → List Json → Prop
  | nil : Json.ItemsAbridged [] []
  | cons {j k : Json} {items short : List Json} (hitem : Json.Abridged j k)
      (hitems : Json.ItemsAbridged items short) : Json.ItemsAbridged (j :: items) (k :: short)

inductive Json.MembersAbridged : List (String × Json) → List (String × Json) → Prop
  | nil : Json.MembersAbridged [] []
  | keep {name : String} {j k : Json} {members short : List (String × Json)}
      (hmember : Json.Abridged j k) (hmembers : Json.MembersAbridged members short) :
      Json.MembersAbridged ((name, j) :: members) ((name, k) :: short)
  | drop {name : String} {j : Json} {members short : List (String × Json)}
      (hdefault : Json.Default name j) (hmembers : Json.MembersAbridged members short) :
      Json.MembersAbridged ((name, j) :: members) short

end

namespace Json

theorem Default.mem {name : String} {j : Json} (hdefault : Default name j) :
    name ∈ defaultNames := by
  cases hdefault with
  | null hname => exact List.mem_append_left _ (List.mem_append_left _ hname)
  | empty hname => exact List.mem_append_left _ (List.mem_append_right _ hname)
  | zero => decide

mutual

/-- Whatever is left out, what remains stands for something. -/
theorem Abridged.usable : {j k : Json} → Abridged j k → k.isUsable = true
  | _, _, .null => rfl
  | _, _, .bool _ => rfl
  | _, _, .number _ => rfl
  | _, _, .text _ => rfl
  | _, _, .list hitems => hitems.usable
  | _, _, .record hmembers => hmembers.usable

theorem ItemsAbridged.usable : {items short : List Json} → ItemsAbridged items short →
    areUsable short = true
  | _, _, .nil => rfl
  | _, _, .cons hitem hitems => by rw [areUsable, hitem.usable, hitems.usable]; rfl

theorem MembersAbridged.usable : {members short : List (String × Json)} →
    MembersAbridged members short → membersUsable short = true
  | _, _, .nil => rfl
  | _, _, .keep hmember hmembers => by rw [membersUsable, hmember.usable, hmembers.usable]; rfl
  | _, _, .drop _ hmembers => hmembers.usable

end

mutual

/-- Nothing has to be left out. -/
theorem Abridged.refl : (j : Json) → j.isUsable = true → Abridged j j
  | .null, _ => .null
  | .bool b, _ => .bool b
  | .number n, _ => .number n
  | .text s, _ => .text s
  | .list items, husable => .list (ItemsAbridged.refl items husable)
  | .record members, husable => .record (MembersAbridged.refl members husable)

theorem ItemsAbridged.refl : (items : List Json) → areUsable items = true →
    ItemsAbridged items items
  | [], _ => .nil
  | j :: items, husable => by
      rw [areUsable, Bool.and_eq_true] at husable
      exact .cons (Abridged.refl j husable.1) (ItemsAbridged.refl items husable.2)

theorem MembersAbridged.refl : (members : List (String × Json)) → membersUsable members = true →
    MembersAbridged members members
  | [], _ => .nil
  | (name, j) :: members, husable => by
      rw [membersUsable, Bool.and_eq_true] at husable
      exact .keep (Abridged.refl j husable.1) (MembersAbridged.refl members husable.2)

end

/-- What an abridged record holds under a name, as against the whole record. -/
inductive FieldAbridged (name : String) : Option Json → Option Json → Prop
  | absent : FieldAbridged name none none
  | kept {j k : Json} (hvalue : Abridged j k) : FieldAbridged name (some j) (some k)
  | omitted {j : Json} (hdefault : Default name j) : FieldAbridged name (some j) none

section Members

variable {members short : List (String × Json)}

theorem MembersAbridged.names : {members short : List (String × Json)} →
    MembersAbridged members short → (short.map Prod.fst).Sublist (members.map Prod.fst)
  | _, _, .nil => .slnil
  | _, _, .keep _ hmembers => hmembers.names.cons_cons _
  | _, _, .drop _ hmembers => hmembers.names.cons _

theorem lookup_eq_none_of_names {name : String} (hname : name ∉ members.map Prod.fst) :
    members.lookup name = none := by
  rw [List.lookup_eq_none_iff]
  intro m hm
  apply bne_iff_ne.mpr
  rintro rfl
  exact hname (List.mem_map_of_mem hm)

/-- The field of a record is kept or left out in what is left of the record. -/
theorem MembersAbridged.field : {members short : List (String × Json)} →
    MembersAbridged members short → (members.map Prod.fst).Nodup → (name : String) →
    FieldAbridged name (members.lookup name) (short.lookup name)
  | _, _, .nil, _, _ => .absent
  | (first, _) :: _, _, .keep hmember hmembers, honce, name => by
      by_cases hname : name = first
      · subst hname
        simpa using FieldAbridged.kept hmember
      · have hrest := hmembers.field (List.nodup_cons.mp honce).2 name
        simpa [List.lookup_cons, beq_false_of_ne hname] using hrest
  | (first, _) :: _, _, .drop hdefault hmembers, honce, name => by
      obtain ⟨hfirst, honce⟩ := List.nodup_cons.mp honce
      by_cases hname : name = first
      · subst hname
        have hgone := lookup_eq_none_of_names fun hmem => hfirst (hmembers.names.subset hmem)
        simpa [hgone] using FieldAbridged.omitted hdefault
      · have hrest := hmembers.field honce name
        simpa [List.lookup_cons, beq_false_of_ne hname] using hrest

/-- No name is repeated in what is left of a record. -/
theorem MembersAbridged.countP_le (hmembers : MembersAbridged members short)
    (honce : (members.map Prod.fst).Nodup) (name : String) :
    short.countP (fun m => m.1 == name) ≤ 1 := by
  have hcount := List.nodup_iff_count.mp (hmembers.names.nodup honce) name
  rwa [List.count, List.countP_map] at hcount

/-- What is left of a record suits any structure. -/
theorem MembersAbridged.suit (hmembers : MembersAbridged members short)
    (honce : (members.map Prod.fst).Nodup) (names : List String) :
    (Fields.named short).suit names = true := by
  simp only [Fields.suit, List.all_eq_true, decide_eq_true_eq]
  exact fun name _ => hmembers.countP_le honce name

end Members

/-! ## Decoding -/

/-- Reading gives the value, whatever is left out of the JSON. -/
def Decodes {α : Type} (read : Json → Option α) (j : Json) (a : α) : Prop :=
  ∀ k, Abridged j k → read k = some a

theorem Abridged.eq_number {n : Numeral} {k : Json} (habridged : Abridged (.number n) k) :
    k = .number n := by
  cases habridged
  rfl

theorem Abridged.eq_text {s : String} {k : Json} (habridged : Abridged (.text s) k) :
    k = .text s := by
  cases habridged
  rfl

theorem Abridged.ne_null {j k : Json} (habridged : Abridged j k) (hj : j ≠ .null) : k ≠ .null := by
  cases habridged with
  | null => exact absurd rfl hj
  | _ => exact nofun

/-- A record whose only member cannot be left out keeps it. -/
theorem Abridged.eq_single {name : String} {j k : Json}
    (habridged : Abridged (.record [(name, j)]) k) (hkept : ¬ Default name j) :
    ∃ short, k = .record [(name, short)] ∧ Abridged j short := by
  cases habridged with
  | record hmembers =>
      cases hmembers with
      | drop hdefault => exact absurd hdefault hkept
      | keep hmember hrest =>
          cases hrest
          exact ⟨_, rfl, hmember⟩

/-- The items of a list are read one by one. -/
theorem ItemsAbridged.mapM_eq {m : Type → Type} [Monad m] [LawfulMonad m] {α : Type}
    {read : Json → m α} {write : α → Json} {xs : List α} {short : List Json}
    (hitems : ItemsAbridged (xs.map write) short)
    (hread : ∀ a ∈ xs, ∀ k, Abridged (write a) k → read k = pure a) :
    short.mapM read = pure xs := by
  induction xs generalizing short with
  | nil =>
      cases hitems
      rfl
  | cons a xs ih =>
      cases hitems with
      | cons hitem hitems =>
          rw [List.mapM_cons, hread a List.mem_cons_self _ hitem, pure_bind,
            ih hitems fun b hb => hread b (List.mem_cons_of_mem a hb), pure_bind]

end Json

section Fields

variable {α : Type} {members : List (String × Json)} {name : String}

open Json

theorem Fields.require?_eq {j : Json} {read : Json → Option α} {a : α}
    (hfield : FieldAbridged name (some j) (members.lookup name)) (hkept : ¬ Default name j)
    (hread : Decodes read j a) (index : Nat) :
    (Fields.named members).require? index name read = some a := by
  have hget : (Fields.named members).get? index name = members.lookup name := rfl
  rw [require?, hget]
  generalize members.lookup name = found at hfield ⊢
  cases hfield with
  | omitted hdefault => exact absurd hdefault hkept
  | kept hvalue => exact hread _ hvalue

theorem Fields.optional?_eq {o : Option α} {read : Json → Option α} {write : α → Json}
    (hfield : FieldAbridged name (some (Json.ofOption write o)) (members.lookup name))
    (hkept : ∀ a, o = some a → ¬ Default name (write a)) (hnull : ∀ a, write a ≠ .null)
    (hread : ∀ a, Decodes read (write a) a) (index : Nat) :
    (Fields.named members).optional? index name read = some o := by
  have hget : (Fields.named members).get? index name = members.lookup name := rfl
  rw [optional?, hget]
  generalize members.lookup name = found at hfield ⊢
  cases o with
  | none =>
      cases hfield with
      | omitted hdefault => rfl
      | kept hvalue =>
          cases hvalue
          rfl
  | some a =>
      cases hfield with
      | omitted hdefault => exact absurd hdefault (hkept a rfl)
      | @kept _ k hvalue =>
          have hgiven := hread a k hvalue
          have hsome := hvalue.ne_null (hnull a)
          cases k with
          | null => exact absurd rfl hsome
          | _ => simp [Json.optional?, hgiven]

theorem Fields.default?_eq {xs : List α} {read : Json → Option (List α)} {write : α → Json}
    (hfield : FieldAbridged name (some (.list (xs.map write))) (members.lookup name))
    (hread : Decodes read (.list (xs.map write)) xs) (index : Nat) :
    (Fields.named members).default? index name read [] = some xs := by
  have hget : (Fields.named members).get? index name = members.lookup name := rfl
  rw [default?, hget]
  generalize members.lookup name = found at hfield ⊢
  cases hfield with
  | kept hvalue => exact hread _ hvalue
  | omitted hdefault =>
      cases xs with
      | nil => rfl
      | cons a xs => cases hdefault

end Fields

/-! ## Values -/

section Words

theorem Json.decodes_number {α : Type} {read : Json → Option α} {n : Numeral} {a : α}
    (hread : read (.number n) = some a) : Json.Decodes read (.number n) a := by
  intro k hk
  rw [hk.eq_number]
  exact hread

theorem Json.decodes_text {α : Type} {read : Json → Option α} {s : String} {a : α}
    (hread : read (.text s) = some a) : Json.Decodes read (.text s) a := by
  intro k hk
  rw [hk.eq_text]
  exact hread

/-- A number is left out as a root only. -/
theorem Json.not_default_number {name : String} {n : Numeral} (hname : name ≠ "root") :
    ¬ Json.Default name (.number n) := by
  intro hdefault
  cases hdefault
  exact hname rfl

theorem Json.not_default_text {name s : String} : ¬ Json.Default name (.text s) := by
  intro hdefault
  cases hdefault

theorem Json.not_default_of_name {name : String} {j : Json} (hname : name ∉ defaultNames) :
    ¬ Json.Default name j :=
  fun hdefault => hname hdefault.mem

theorem Reg.decodes (r : Reg) : Json.Decodes Reg.ofJson? r.toJson r :=
  Json.decodes_number r.ofJson?_toJson

theorem Label.decodes (l : Label) : Json.Decodes Label.ofJson? l.toJson l :=
  Json.decodes_number l.ofJson?_toJson

theorem ScopeId.decodes (id : ScopeId) : Json.Decodes ScopeId.ofJson? id.toJson id :=
  Json.decodes_number id.ofJson?_toJson

theorem Json.decodes_text? (s : String) : Json.Decodes Json.text? (.text s) s :=
  Json.decodes_text rfl

theorem JumpReason.decodes (emptyCounts : Bool) (reason : JumpReason) :
    Json.Decodes (JumpReason.ofJson? emptyCounts) reason.toJson reason := by
  cases reason <;> exact Json.decodes_text rfl

theorem Json.decodes_texts (ss : List String) :
    Json.Decodes Json.texts? (.list (ss.map .text)) ss := by
  intro k hk
  cases hk with
  | list hitems => exact hitems.mapM_eq fun s _ => Json.decodes_text rfl

end Words

/-- The exit value is what stands under its name. -/
theorem Value.ofMembers?_eq (emptyCounts : Bool) (members : List (String × Json)) :
    Value.ofMembers? emptyCounts members =
      match members.lookup "exit_value" with
      | none => some none
      | some j =>
          if j.isNothing false then some none else (Value.ofJson? emptyCounts j).map some := by
  induction members with
  | nil => rfl
  | cons m members ih =>
      obtain ⟨name, j⟩ := m
      by_cases hname : name = "exit_value"
      · subst hname
        simp [Value.ofMembers?]
      · rw [Value.ofMembers?, if_neg hname, ih, List.lookup_cons, beq_false_of_ne (Ne.symm hname)]

theorem Json.isNothing_of_ne_null {k : Json} (hk : k ≠ .null) : k.isNothing false = false := by
  cases k with
  | null => exact absurd rfl hk
  | record members => cases members <;> rfl
  | _ => rfl

theorem Value.toJson_ne_null (v : Value) : v.toJson ≠ .null := by
  cases v <;> rw [toJson] <;> exact nofun

theorem Value.not_default_toJson {name : String} (v : Value) : ¬ Json.Default name v.toJson := by
  intro hdefault
  cases v <;> rw [toJson] at hdefault <;> cases hdefault

theorem Json.int64?_toInt (n : Int64) : (Json.number (.whole n.toInt)).int64? = some n := by
  have hbounds : -0x8000000000000000 ≤ n.toInt ∧ n.toInt < 0x8000000000000000 :=
    ⟨n.le_toInt, n.toInt_lt⟩
  rw [int64?, if_pos hbounds, Int64.ofInt_toInt]

/-- The members that stand for an exception, given what stands for its exit value. -/
def Exception.members (e : Exception) : List (String × Json) := [
  ("class", .text e.className), ("message", .text e.message),
  ("reason", Json.ofOption JumpReason.toJson e.reason),
  ("exit_value", Value.optionToJson e.exitValue), ("backtrace", .list (e.backtrace.map .text))]

theorem Exception.toJson_eq (e : Exception) : e.toJson = .record e.members := by
  cases e
  rfl

theorem Exception.members_once (e : Exception) : (e.members.map Prod.fst).Nodup := by
  simp [members]

/-- The other fields of an exception are found whatever its exit value is. -/
theorem Exception.ofFields?_eq (emptyCounts : Bool) (e : Exception)
    {short : List (String × Json)} (hmembers : Json.MembersAbridged e.members short) :
    Exception.ofFields? emptyCounts (.named short) e.exitValue = some e := by
  have honce := e.members_once
  have hsuit := hmembers.suit honce Exception.fieldNames
  have hclass : (Fields.named short).require? 0 "class" Json.text? = some e.className :=
    Fields.require?_eq (hmembers.field honce "class") Json.not_default_text
      (Json.decodes_text? e.className) 0
  have hmessage : (Fields.named short).require? 1 "message" Json.text? = some e.message :=
    Fields.require?_eq (hmembers.field honce "message") Json.not_default_text
      (Json.decodes_text? e.message) 1
  have hreason : (Fields.named short).optional? 2 "reason" (JumpReason.ofJson? emptyCounts) =
      some e.reason :=
    Fields.optional?_eq (hmembers.field honce "reason") (fun _ _ => Json.not_default_text)
      (fun _ => nofun) (JumpReason.decodes emptyCounts) 2
  have hbacktrace : (Fields.named short).default? 4 "backtrace" Json.texts? [] =
      some e.backtrace :=
    Fields.default?_eq (hmembers.field honce "backtrace") (Json.decodes_texts e.backtrace) 4
  cases e
  simp [Exception.ofFields?, hsuit, hclass, hmessage, hreason, hbacktrace]

mutual

/-- A value is what is read from its JSON. -/
theorem Value.decodes (emptyCounts : Bool) : (v : Value) →
    Json.Decodes (Value.ofJson? emptyCounts) v.toJson v
  | .nil => Json.decodes_text rfl
  | .bool b => by
      intro k hk
      obtain ⟨short, rfl, hb⟩ := hk.eq_single (Json.not_default_of_name (by decide))
      cases hb
      rfl
  | .int n => by
      intro k hk
      obtain ⟨short, rfl, hn⟩ := hk.eq_single (Json.not_default_of_name (by decide))
      rw [hn.eq_number, Value.ofJson?, Json.int64?_toInt]
      rfl
  | .float x => by
      intro k hk
      obtain ⟨short, rfl, hx⟩ := hk.eq_single (Json.not_default_of_name (by decide))
      cases hx
      rfl
  | .str s => by
      intro k hk
      obtain ⟨short, rfl, hs⟩ := hk.eq_single (Json.not_default_of_name (by decide))
      cases hs
      rfl
  | .exception e => by
      intro k hk
      obtain ⟨short, rfl, he⟩ := hk.eq_single (Json.not_default_of_name (by decide))
      exact e.decodes emptyCounts short he

theorem Exception.decodes (emptyCounts : Bool) : (e : Exception) → (k : Json) →
    Json.Abridged e.toJson k →
    Value.ofJson? emptyCounts (.record [("exception", k)]) = some (.exception e)
  | ⟨className, message, reason, exitValue, backtrace⟩, k, hk => by
      rw [Exception.toJson_eq] at hk
      cases hk with
      | record hmembers =>
          have honce := Exception.members_once ⟨className, message, reason, exitValue, backtrace⟩
          have hexit := Value.optionDecodes emptyCounts exitValue _
            (hmembers.field honce "exit_value")
          rw [← Value.ofMembers?_eq] at hexit
          have hfields := Exception.ofFields?_eq emptyCounts _ hmembers
          simp only at hfields
          simp [Value.ofJson?, hexit, hfields]

theorem Value.optionDecodes (emptyCounts : Bool) : (o : Option Value) → (found : Option Json) →
    Json.FieldAbridged "exit_value" (some (Value.optionToJson o)) found →
    (match found with
      | none => some none
      | some j =>
          if j.isNothing false then some none else (Value.ofJson? emptyCounts j).map some) = some o
  | none, _, hfield => by
      cases hfield with
      | omitted hdefault => rfl
      | kept hvalue =>
          cases hvalue
          rfl
  | some v, _, hfield => by
      cases hfield with
      | omitted hdefault => exact absurd hdefault v.not_default_toJson
      | kept hvalue =>
          have hsome := Json.isNothing_of_ne_null (hvalue.ne_null v.toJson_ne_null)
          simp [hsome, v.decodes emptyCounts _ hvalue]

end

/-! ## Instructions -/

theorem Operand.decodes (o : Operand) : Json.Decodes Operand.ofJson? o.toJson o := by
  intro k hk
  cases o with
  | reg r =>
      obtain ⟨short, rfl, hr⟩ := hk.eq_single (Json.not_default_of_name (by decide))
      exact congrArg (Option.map Operand.reg) (r.decodes short hr)
  | const v =>
      obtain ⟨short, rfl, hv⟩ := hk.eq_single (Json.not_default_of_name (by decide))
      exact congrArg (Option.map Operand.const) (v.decodes true short hv)
  | receiver =>
      rw [hk.eq_text]
      rfl
  | nil =>
      rw [hk.eq_text]
      rfl

theorem Operand.not_default_toJson {name : String} (o : Operand) :
    ¬ Json.Default name o.toJson := by
  intro hdefault
  cases o <;> cases hdefault

theorem Operand.listDecodes (args : List Operand) :
    Json.Decodes Operand.listOfJson? (.list (args.map Operand.toJson)) args := by
  intro k hk
  cases hk with
  | list hitems => exact hitems.mapM_eq fun o _ => o.decodes

theorem BlockMode.decodes (mode : BlockMode) :
    Json.Decodes BlockMode.ofJson? mode.toJson mode := by
  cases mode <;> exact Json.decodes_text rfl

/-- An instruction is read from the fields that stand beside the name of its operation. -/
theorem Instr.decodes_withOp {numbered : Bool} {op : String} {fields : List (String × Json)}
    {i : Instr} (honce : ((("op", Json.text op) :: fields).map Prod.fst).Nodup)
    (hfields : ∀ short,
      (∀ names, (Fields.named short).suit names = true) →
      (∀ name, Json.FieldAbridged name ((("op", Json.text op) :: fields).lookup name)
        (short.lookup name)) →
      Instr.ofFields? op (.named short) = some i) :
    Json.Decodes (Instr.ofJson? numbered) (withOp op fields) i := by
  intro k hk
  cases hk with
  | @record _ short hmembers =>
      have husable : (Json.record short).isUsable = true := hmembers.usable
      have hop : short.lookup "op" = some (.text op) := by
        have hfield := hmembers.field honce "op"
        generalize short.lookup "op" = found at hfield
        cases hfield with
        | omitted hdefault => exact absurd hdefault Json.not_default_text
        | kept hvalue => rw [hvalue.eq_text]
      have hcount : short.countP (fun m => m.1 == "op") = 1 := by
        have hle := hmembers.countP_le honce "op"
        have hpos : 0 < short.countP (fun m => m.1 == "op") := by
          obtain ⟨before, after, hshort, -⟩ := List.lookup_eq_some_iff.mp hop
          rw [List.countP_pos_iff, hshort]
          exact ⟨("op", .text op), by simp, by simp⟩
        omega
      simp [Instr.ofJson?, husable, hcount, Json.member?, hop, Instr.opName?,
        hfields short (hmembers.suit honce) (hmembers.field honce)]

theorem Reg.not_default_toJson {name : String} (hname : name ≠ "root") (r : Reg) :
    ¬ Json.Default name r.toJson :=
  Json.not_default_number hname

theorem Label.not_default_toJson {name : String} (hname : name ≠ "root") (l : Label) :
    ¬ Json.Default name l.toJson :=
  Json.not_default_number hname

theorem ScopeId.not_default_toJson {name : String} (hname : name ≠ "root") (id : ScopeId) :
    ¬ Json.Default name id.toJson :=
  Json.not_default_number hname

/-- An instruction is what is read from its JSON. -/
theorem Instr.decodes (numbered : Bool) (i : Instr) :
    Json.Decodes (Instr.ofJson? numbered) i.toJson i := by
  cases i with
  | loadConst value dst =>
      refine decodes_withOp (by simp) fun short hsuit hfield => ?_
      have hvalue := Fields.require?_eq (hfield "value") value.not_default_toJson
        (value.decodes true) 0
      have hdst := Fields.require?_eq (hfield "dst") (dst.not_default_toJson (by decide))
        dst.decodes 1
      simp [ofFields?, hsuit, hvalue, hdst]
  | copy src dst =>
      refine decodes_withOp (by simp) fun short hsuit hfield => ?_
      have hsrc := Fields.require?_eq (hfield "src") src.not_default_toJson src.decodes 0
      have hdst := Fields.require?_eq (hfield "dst") (dst.not_default_toJson (by decide))
        dst.decodes 1
      simp [ofFields?, hsuit, hsrc, hdst]
  | binary op lhs rhs dst =>
      refine decodes_withOp (by simp) fun short hsuit hfield => ?_
      have hlhs := Fields.require?_eq (hfield "lhs") lhs.not_default_toJson lhs.decodes 0
      have hrhs := Fields.require?_eq (hfield "rhs") rhs.not_default_toJson rhs.decodes 1
      have hdst := Fields.require?_eq (hfield "dst") (dst.not_default_toJson (by decide))
        dst.decodes 2
      have hop : ofFields? op.opName (.named short) = binaryOfFields? op (.named short) := by
        cases op <;> rfl
      simp [hop, binaryOfFields?, hsuit, hlhs, hrhs, hdst]
  | jump target =>
      refine decodes_withOp (by simp) fun short hsuit hfield => ?_
      have htarget := Fields.require?_eq (hfield "target")
        (target.not_default_toJson (by decide)) target.decodes 0
      simp [ofFields?, hsuit, htarget]
  | branch truthy cond target =>
      cases truthy <;> refine decodes_withOp (by simp) fun short hsuit hfield => ?_
      all_goals
        have hcond := Fields.require?_eq (hfield "cond") cond.not_default_toJson cond.decodes 0
        have htarget := Fields.require?_eq (hfield "target")
          (target.not_default_toJson (by decide)) target.decodes 1
        simp [ofFields?, branchOfFields?, hsuit, hcond, htarget]
  | ret value method =>
      refine decodes_withOp (by simp) fun short hsuit hfield => ?_
      have hvalue := Fields.require?_eq (hfield "value") value.not_default_toJson value.decodes 0
      have hmethod := Fields.optional?_eq (hfield "method")
        (fun id _ => id.not_default_toJson (by decide)) (fun _ => nofun) ScopeId.decodes 1
      simp [ofFields?, hsuit, hvalue, hmethod]
  | brk value target =>
      refine decodes_withOp (by simp) fun short hsuit hfield => ?_
      have hvalue := Fields.require?_eq (hfield "value") value.not_default_toJson value.decodes 0
      have htarget := Fields.require?_eq (hfield "target")
        (target.not_default_toJson (by decide)) target.decodes 1
      simp [ofFields?, hsuit, hvalue, htarget]
  | raise value =>
      refine decodes_withOp (by simp) fun short hsuit hfield => ?_
      have hvalue := Fields.require?_eq (hfield "value") value.not_default_toJson value.decodes 0
      simp [ofFields?, hsuit, hvalue]
  | fatal message =>
      refine decodes_withOp (by simp) fun short hsuit hfield => ?_
      have hmessage := Fields.require?_eq (hfield "message") Json.not_default_text
        (Json.decodes_text? message) 0
      simp [ofFields?, hsuit, hmessage]
  | receiveException dst =>
      refine decodes_withOp (by simp) fun short hsuit hfield => ?_
      have hdst := Fields.require?_eq (hfield "dst") (dst.not_default_toJson (by decide))
        dst.decodes 0
      simp [ofFields?, hsuit, hdst]
  | resumePending =>
      refine decodes_withOp (by simp) fun short hsuit _ => ?_
      simp [ofFields?, hsuit]
  | clearPending =>
      refine decodes_withOp (by simp) fun short hsuit _ => ?_
      simp [ofFields?, hsuit]
  | callMethod method args dst =>
      refine decodes_withOp (by simp) fun short hsuit hfield => ?_
      have hmethod := Fields.require?_eq (hfield "method")
        (method.not_default_toJson (by decide)) method.decodes 0
      have hargs := Fields.default?_eq (hfield "args") (Operand.listDecodes args) 1
      have hdst := Fields.optional?_eq (hfield "dst")
        (fun r _ => r.not_default_toJson (by decide)) (fun _ => nofun) Reg.decodes 2
      simp [ofFields?, hsuit, hmethod, hargs, hdst]
  | callClosure closure mode args dst =>
      refine decodes_withOp (by simp) fun short hsuit hfield => ?_
      have hclosure := Fields.require?_eq (hfield "closure")
        (closure.not_default_toJson (by decide)) closure.decodes 0
      have hmode := Fields.require?_eq (hfield "mode") Json.not_default_text mode.decodes 1
      have hargs := Fields.default?_eq (hfield "args") (Operand.listDecodes args) 2
      have hdst := Fields.optional?_eq (hfield "dst")
        (fun r _ => r.not_default_toJson (by decide)) (fun _ => nofun) Reg.decodes 3
      simp [ofFields?, hsuit, hclosure, hmode, hargs, hdst]
  | line number =>
      refine decodes_withOp (by simp) fun short hsuit hfield => ?_
      have hnumber := Fields.require?_eq (hfield "line") (Json.not_default_number (by decide))
        (Json.decodes_number (Json.word?_ofWord number)) 0
      simp [ofFields?, hsuit, hnumber]

end Unwind
