import Mathlib.Data.List.Forall2
import Unwind.Json.Reader
import Unwind.Proofs.Quotation
import Unwind.Proofs.WholeNumbers

/-!
Written JSON is read back.

The text of a value is cut into tokens that mirror the value, and the reader puts each part into the
container that is open around it.  Floats are left out, whose text depends on their digits, and so
is whatever is nested too deep to be read.
-/

namespace Unwind

mutual

/-- Every number passes the test, and every part stands for something. -/
def Json.all (test : Numeral → Bool) : Json → Bool
  | .number n => test n
  | .list items => Json.allItems test items
  | .record members => Json.allMembers test members
  | .unusable => false
  | _ => true

def Json.allItems (test : Numeral → Bool) : List Json → Bool
  | [] => true
  | j :: items => j.all test && Json.allItems test items

def Json.allMembers (test : Numeral → Bool) : List (String × Json) → Bool
  | [] => true
  | (_, j) :: members => j.all test && Json.allMembers test members

end

mutual

/-- The number of containers around the innermost part. -/
def Json.depth : Json → Nat
  | .list items => Json.itemsDepth items + 1
  | .record members => Json.membersDepth members + 1
  | _ => 0

def Json.itemsDepth : List Json → Nat
  | [] => 0
  | j :: items => max j.depth (Json.itemsDepth items)

def Json.membersDepth : List (String × Json) → Nat
  | [] => 0
  | (_, j) :: members => max j.depth (Json.membersDepth members)

end

/-! ## The cut -/

mutual

/-- The tokens of a written value. -/
def Json.tokens : Json → List Token
  | .text s => [.text (some s)]
  | .list items => .openList :: (List.intercalate [.comma] (Json.itemTokens items) ++ [.closeList])
  | .record members =>
      .openRecord :: (List.intercalate [.comma] (Json.memberTokens members) ++ [.closeRecord])
  | j => [.scalar j]

def Json.itemTokens : List Json → List (List Token)
  | [] => []
  | j :: items => j.tokens :: Json.itemTokens items

def Json.memberTokens : List (String × Json) → List (List Token)
  | [] => []
  | (name, j) :: members => (.text (some name) :: .colon :: j.tokens) :: Json.memberTokens members

end

/-- A word ends in front of the characters. -/
def EndsWord (cs : List Char) : Prop := ∀ c ∈ cs.head?, isWordChar c = false

/-- The characters are cut into the tokens, in front of whatever ends a word. -/
def CutInto (cs : List Char) (tokens : List Token) : Prop :=
  ∀ found rest, EndsWord rest → tokensFrom? found .between (cs ++ rest) =
    tokensFrom? (tokens.reverse ++ found) .between rest

namespace CutInto

theorem nil : CutInto [] [] := fun _ _ _ => rfl

theorem append {cs ds : List Char} {c : Char} {ts us : List Token} (hcs : CutInto cs ts)
    (hc : isWordChar c = false) (hds : CutInto (c :: ds) us) :
    CutInto (cs ++ c :: ds) (ts ++ us) := by
  intro found rest hrest
  have hends : EndsWord (c :: ds ++ rest) := by
    intro d hd
    obtain rfl : c = d := Option.some.inj hd
    exact hc
  rw [List.append_assoc, hcs found _ hends, hds _ rest hrest, List.reverse_append,
    List.append_assoc]

/-- A mark is a token by itself. -/
theorem mark {c : Char} {t : Token} {ds : List Char} {us : List Token}
    (hc : Cut.begin? c = some (some t, .between)) (hds : CutInto ds us) :
    CutInto (c :: ds) (t :: us) := by
  intro found rest hrest
  rw [List.cons_append, tokensFrom?, hc]
  simp only [Option.bind_eq_bind, Option.bind_some, Option.toList_some, List.singleton_append]
  rw [hds _ rest hrest, List.reverse_cons, List.append_assoc]
  rfl

theorem intercalate {css : List (List Char)} {tss : List (List Token)}
    (hparts : List.Forall₂ CutInto css tss) :
    CutInto (List.intercalate [','] css) (List.intercalate [.comma] tss) := by
  induction hparts with
  | nil => exact nil
  | @cons cs ts css tss hpart hparts ih =>
      cases hparts with
      | nil =>
          rw [List.intercalate_singleton, List.intercalate_singleton]
          exact hpart
      | cons hnext hparts =>
          rw [List.intercalate_cons_cons, List.intercalate_cons_cons, List.append_assoc,
            List.append_assoc]
          exact hpart.append (by decide) (mark rfl ih)

theorem quoted (s : String) : CutInto (jsonText s).toList [.text (some s)] :=
  fun found rest _ => tokensFrom?_jsonText s found rest

end CutInto

theorem Cut.begin?_word {c : Char} (hc : isWordChar c = true) :
    begin? c = some (none, .inWord [c]) := by
  unfold begin?
  split <;> first | exact absurd hc (by decide) | exact if_pos hc

theorem tokensFrom?_inWord {word : List Char} (hword : ∀ c ∈ word, isWordChar c = true)
    (found : List Token) (taken rest : List Char) :
    tokensFrom? found (.inWord taken) (word ++ rest) =
      tokensFrom? found (.inWord (word.reverse ++ taken)) rest := by
  induction word generalizing taken with
  | nil => rfl
  | cons c word ih =>
      rw [List.cons_append, tokensFrom?, if_pos (hword c List.mem_cons_self),
        ih fun d hd => hword d (List.mem_cons_of_mem c hd), List.reverse_cons, List.append_assoc]
      rfl

theorem CutInto.word {word : List Char} {t : Token} (hword : word.all isWordChar = true)
    (hne : word ≠ []) (hread : Token.ofWord? word = some t) : CutInto word [t] := by
  intro found rest hrest
  rw [List.all_eq_true] at hword
  obtain ⟨c, cs, rfl⟩ := List.exists_cons_of_ne_nil hne
  rw [List.cons_append, tokensFrom?, Cut.begin?_word (hword c List.mem_cons_self)]
  simp only [Option.bind_eq_bind, Option.bind_some, Option.toList_none, List.nil_append]
  rw [tokensFrom?_inWord fun d hd => hword d (List.mem_cons_of_mem c hd)]
  cases rest with
  | nil => simp [tokensFrom?, hread]
  | cons d rest =>
      have hd := hrest d rfl
      simp [tokensFrom?, hread, hd]

theorem CutInto.whole {n : Int} (hexact : (Numeral.whole n).isExact = true) :
    CutInto (toString n).toList [.scalar (.number (.whole n))] := by
  have hother {c : Char} {cs : List Char} (hc : ¬ (c.isDigit = true ∨ c = '-')) :
      (toString n).toList ≠ c :: cs :=
    fun hchars => hc (isDigit_or_sign (hchars ▸ List.mem_cons_self))
  apply word
  · rw [List.all_eq_true]
    intro c hc
    rcases isDigit_or_sign hc with hdigit | rfl
    · simp [isWordChar, Char.isAlphanum, hdigit]
    · decide
  · exact toString_ne_nil n
  · rw [Token.ofWord?, if_neg (hother (by decide)), if_neg (hother (by decide)),
      if_neg (hother (by decide)), ofNumeral?_toString hexact]
    rfl

mutual

/-- A written value is cut into its tokens. -/
theorem Json.cutInto_tokens : (j : Json) → j.all Numeral.isExact = true →
    CutInto j.write.toList j.tokens
  | .null, _ => by
      have hchars : Json.null.write.toList = ['n', 'u', 'l', 'l'] := by simp [write]
      rw [hchars]
      exact .word rfl (by decide) rfl
  | .bool true, _ => by
      have hchars : (Json.bool true).write.toList = ['t', 'r', 'u', 'e'] := by simp [write]
      rw [hchars]
      exact .word rfl (by decide) rfl
  | .bool false, _ => by
      have hchars : (Json.bool false).write.toList = ['f', 'a', 'l', 's', 'e'] := by simp [write]
      rw [hchars]
      exact .word rfl (by decide) rfl
  | .number (.whole n), hexact => .whole hexact
  | .text s, _ => .quoted s
  | .list items, hitems => by
      have hchars : (Json.list items).write.toList =
          '[' :: (List.intercalate [','] ((writeItems items).map String.toList) ++ [']']) := by
        simp [write, String.toList_intercalate]
      rw [hchars]
      exact .mark rfl ((CutInto.intercalate (cutInto_itemTokens items hitems)).append (by decide)
        (.mark rfl .nil))
  | .record members, hmembers => by
      have hchars : (Json.record members).write.toList =
          '\x7b' :: (List.intercalate [','] ((writeMembers members).map String.toList) ++
            ['\x7d']) := by
        simp [write, String.toList_intercalate]
      rw [hchars]
      exact .mark rfl ((CutInto.intercalate (cutInto_memberTokens members hmembers)).append
        (by decide) (.mark rfl .nil))

theorem Json.cutInto_itemTokens : (items : List Json) → allItems Numeral.isExact items = true →
    List.Forall₂ CutInto ((writeItems items).map String.toList) (itemTokens items)
  | [], _ => .nil
  | j :: items, hitems => by
      obtain ⟨hj, hitems⟩ := Bool.and_eq_true_iff.mp hitems
      exact .cons (cutInto_tokens j hj) (cutInto_itemTokens items hitems)

theorem Json.cutInto_memberTokens : (members : List (String × Json)) →
    allMembers Numeral.isExact members = true →
    List.Forall₂ CutInto ((writeMembers members).map String.toList) (memberTokens members)
  | [], _ => .nil
  | (name, j) :: members, hmembers => by
      obtain ⟨hj, hmembers⟩ := Bool.and_eq_true_iff.mp hmembers
      have hchars : (jsonText name ++ ":" ++ j.write).toList =
          (jsonText name).toList ++ ':' :: j.write.toList := by
        simp
      refine .cons ?_ (cutInto_memberTokens members hmembers)
      rw [hchars]
      exact (CutInto.quoted name).append (by decide) (.mark rfl (cutInto_tokens j hj))

end

/-! ## The reader -/

/-- A value may begin here. -/
def Expectation.Begins (expected : Expectation) : Prop :=
  expected = .value ∨ expected = .valueOrClose

variable {limit : Nat}

theorem Reader.take_scalar {expected : Expectation} (hbegins : expected.Begins) (j : Json)
    (containers : List OpenContainer) :
    take limit (.reading containers expected) (.scalar j) = complete j containers := by
  rcases hbegins with rfl | rfl <;> rfl

theorem Reader.take_text {expected : Expectation} (hbegins : expected.Begins) (s : String)
    (containers : List OpenContainer) :
    take limit (.reading containers expected) (.text (some s)) = complete (.text s) containers := by
  rcases hbegins with rfl | rfl <;> rfl

theorem Reader.take_openList {expected : Expectation} (hbegins : expected.Begins)
    (containers : List OpenContainer) :
    take limit (.reading containers expected) .openList =
      some (.reading (.list [] :: containers) .valueOrClose) := by
  rcases hbegins with rfl | rfl <;> rfl

theorem Reader.take_openRecord {expected : Expectation} (hbegins : expected.Begins)
    (containers : List OpenContainer) :
    take limit (.reading containers expected) .openRecord =
      some (.reading (.record [] :: containers) .nameOrClose) := by
  rcases hbegins with rfl | rfl <;> rfl

/-- A container that is not nested too deep is completed when it is closed. -/
theorem Reader.close_eq {outer : List OpenContainer} (hdepth : outer.length < limit) (j : Json) :
    close limit j outer = complete j outer := by
  rw [close, if_pos ((isShorter_iff outer limit).mpr hdepth)]

theorem Json.ofMembers_map (members : List (String × Json)) :
    ofMembers (members.map fun (name, j) => (some name, j)) = .record members := by
  have hnamed : (members.map fun (name, j) => (some name, j)).mapM
      (fun member : Option String × Json => member.1.map fun name => (name, member.2)) =
        some members := by
    induction members with
    | nil => rfl
    | cons member members ih => simp [ih]
  rw [ofMembers, hnamed]

/-- The tokens complete the value, wherever there is room for as many containers. -/
def Completes (limit room : Nat) (tokens : List Token) (j : Json) : Prop :=
  ∀ containers expected, containers.length + room ≤ limit → Expectation.Begins expected →
    tokens.foldlM (Reader.take limit) (.reading containers expected) =
      Reader.complete j containers

/-- The tokens name a member and complete its value. -/
def CompletesMember (limit room : Nat) (tokens : List Token) (member : String × Json) : Prop :=
  ∃ rest, tokens = .text (some member.1) :: .colon :: rest ∧ Completes limit room rest member.2

namespace Completes

variable {room : Nat}

/-- A token by itself completes a value if it does so wherever a value may begin. -/
theorem single {t : Token} {j : Json}
    (htake : ∀ containers expected, Expectation.Begins expected →
      Reader.take limit (.reading containers expected) t = Reader.complete j containers) :
    Completes limit room [t] j := by
  intro containers expected _ hbegins
  simp [htake containers expected hbegins]

/-- The items of a list are put into it one after the other. -/
theorem items {tss : List (List Token)} {js : List Json} (hne : js ≠ [])
    (hitems : List.Forall₂ (Completes limit room) tss js) {done : List Json}
    {outer : List OpenContainer} (hroom : outer.length + 1 + room ≤ limit)
    {expected : Expectation} (hbegins : expected.Begins) :
    (List.intercalate [.comma] tss).foldlM (Reader.take limit)
        (.reading (.list done :: outer) expected) =
      some (.reading (.list (js.reverse ++ done) :: outer) .commaOrClose) := by
  induction hitems generalizing done expected with
  | nil => exact absurd rfl hne
  | @cons ts j tss js hitem hitems ih =>
      have hfirst := hitem (.list done :: outer) expected hroom hbegins
      cases hitems with
      | nil =>
          rw [List.intercalate_singleton, hfirst]
          rfl
      | cons hnext hitems =>
          rw [List.intercalate_cons_cons, List.append_assoc, List.foldlM_append, hfirst,
            List.reverse_cons, List.append_assoc]
          exact ih (List.cons_ne_nil _ _) (Or.inl rfl)

/-- The members of a record are put into it one after the other. -/
theorem members {tss : List (List Token)} {ms : List (String × Json)} (hne : ms ≠ [])
    (hmembers : List.Forall₂ (CompletesMember limit room) tss ms)
    {done : List (Option String × Json)} {outer : List OpenContainer}
    (hroom : outer.length + 1 + room ≤ limit) {expected : Expectation}
    (hexpected : expected = .name ∨ expected = .nameOrClose) :
    (List.intercalate [.comma] tss).foldlM (Reader.take limit)
        (.reading (.record done :: outer) expected) =
      some (.reading (.record ((ms.map fun (name, j) => (some name, j)).reverse ++ done) :: outer)
        .commaOrClose) := by
  induction hmembers generalizing done expected with
  | nil => exact absurd rfl hne
  | @cons ts m tss ms hmember hmembers ih =>
      obtain ⟨rest, rfl, hvalue⟩ := hmember
      have hfirst : (.text (some m.1) :: .colon :: rest).foldlM (Reader.take limit)
          (.reading (.record done :: outer) expected) =
            some (.reading (.record ((some m.1, m.2) :: done) :: outer) .commaOrClose) := by
        have hgiven := hvalue (.member done (some m.1) :: outer) .value hroom (Or.inl rfl)
        rcases hexpected with rfl | rfl <;> exact hgiven
      cases hmembers with
      | nil =>
          rw [List.intercalate_singleton, hfirst]
          rfl
      | cons hnext hmembers =>
          rw [List.intercalate_cons_cons, List.append_assoc, List.foldlM_append, hfirst,
            List.map_cons, List.reverse_cons, List.append_assoc]
          exact ih (List.cons_ne_nil _ _) (Or.inl rfl)

theorem list {tss : List (List Token)} {js : List Json}
    (hitems : List.Forall₂ (Completes limit room) tss js) :
    Completes limit (room + 1) (.openList :: (List.intercalate [.comma] tss ++ [.closeList]))
      (.list js) := by
  intro containers expected hroom hbegins
  have hclose := Reader.close_eq (show containers.length < limit by omega) (.list js)
  rw [List.foldlM_cons, Reader.take_openList hbegins, Option.bind_eq_bind, Option.bind_some]
  cases hitems with
  | nil =>
      rw [← hclose]
      simp [Reader.take]
  | cons hitem hitems =>
      rw [List.foldlM_append, items (List.cons_ne_nil _ _) (.cons hitem hitems) (by omega)
        (Or.inr rfl), ← hclose]
      simp [Reader.take]

theorem record {tss : List (List Token)} {ms : List (String × Json)}
    (hmembers : List.Forall₂ (CompletesMember limit room) tss ms) :
    Completes limit (room + 1) (.openRecord :: (List.intercalate [.comma] tss ++ [.closeRecord]))
      (.record ms) := by
  intro containers expected hroom hbegins
  have hclose := Reader.close_eq (show containers.length < limit by omega) (.record ms)
  rw [List.foldlM_cons, Reader.take_openRecord hbegins, Option.bind_eq_bind, Option.bind_some]
  cases hmembers with
  | nil =>
      rw [← hclose]
      simp [Reader.take, Json.ofMembers]
  | cons hmember hmembers =>
      rw [List.foldlM_append, members (List.cons_ne_nil _ _) (.cons hmember hmembers) (by omega)
        (Or.inr rfl), ← hclose, ← Json.ofMembers_map]
      simp [Reader.take]

end Completes

mutual

/-- The tokens of a value complete it, if it is not nested too deep. -/
theorem Json.completes_tokens {test : Numeral → Bool} : (j : Json) → j.all test = true →
    {room : Nat} → j.depth ≤ room → Completes limit room j.tokens j
  | .null, _, _, _ => .single fun containers _ hbegins =>
      Reader.take_scalar hbegins .null containers
  | .bool b, _, _, _ => .single fun containers _ hbegins =>
      Reader.take_scalar hbegins (.bool b) containers
  | .number n, _, _, _ => .single fun containers _ hbegins =>
      Reader.take_scalar hbegins (.number n) containers
  | .text s, _, _, _ => .single fun containers _ hbegins =>
      Reader.take_text hbegins s containers
  | .list items, hitems, _ + 1, hdepth =>
      .list (completes_itemTokens items hitems (Nat.le_of_succ_le_succ hdepth))
  | .record members, hmembers, _ + 1, hdepth =>
      .record (completes_memberTokens members hmembers (Nat.le_of_succ_le_succ hdepth))

theorem Json.completes_itemTokens {test : Numeral → Bool} : (items : List Json) →
    allItems test items = true → {room : Nat} → itemsDepth items ≤ room →
    List.Forall₂ (Completes limit room) (itemTokens items) items
  | [], _, _, _ => .nil
  | j :: items, hitems, _, hdepth => by
      obtain ⟨hj, hitems⟩ := Bool.and_eq_true_iff.mp hitems
      obtain ⟨hjDepth, hdepth⟩ := Nat.max_le.mp hdepth
      exact .cons (completes_tokens j hj hjDepth) (completes_itemTokens items hitems hdepth)

theorem Json.completes_memberTokens {test : Numeral → Bool} : (members : List (String × Json)) →
    allMembers test members = true → {room : Nat} → membersDepth members ≤ room →
    List.Forall₂ (CompletesMember limit room) (memberTokens members) members
  | [], _, _, _ => .nil
  | (name, j) :: members, hmembers, _, hdepth => by
      obtain ⟨hj, hmembers⟩ := Bool.and_eq_true_iff.mp hmembers
      obtain ⟨hjDepth, hdepth⟩ := Nat.max_le.mp hdepth
      exact .cons ⟨j.tokens, rfl, completes_tokens j hj hjDepth⟩
        (completes_memberTokens members hmembers hdepth)

end

/-- Reading undoes writing. -/
theorem Json.read?_write {j : Json} (hexact : j.all Numeral.isExact = true)
    (hdepth : j.depth ≤ limit) : read? limit j.write = some j := by
  have hcut := cutInto_tokens j hexact [] [] nofun
  have hcompletes : Completes limit limit j.tokens j := completes_tokens j hexact hdepth
  have hread := hcompletes [] .value (by simp) (Or.inl rfl)
  have htokens : Token.ofText? j.write = some j.tokens := by
    rw [Token.ofText?]
    simpa [tokensFrom?] using hcut
  rw [read?, htokens]
  simp [hread, Reader.complete]

end Unwind
