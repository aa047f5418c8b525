import Mathlib
import SkillBoard.Json.Printer
import SkillBoard.Json.Reader
import SkillBoard.Proofs.Decimal.Text

/-!
# Written JSON is read back

A value that is written out is read as itself but for its numbers, which are read as their texts are.

* `reread?` is the value with each number read from its text.
* `tokens` are the tokens of a value. The lexer gives those of the reread value (`lex_pretty`), the
  reader puts a value together from its tokens (`read_tokens`).
* `parse?_render`: so that is what a written value is read as, up to the depth that the reader goes to.
-/

namespace SkillBoard.Json

/-! ## What a written value says -/

mutual

/-- The value with each number as it is read from its text. -/
def reread? : Json → Option Json
  | .int i => number? (toString i).toList
  | .real x => number? (Decimal.Layout.json.render x).toList
  | .list items => (rereadItems? items).map .list
  | .record members => (rereadMembers? members).map .record
  | v => some v

def rereadItems? : List Json → Option (List Json)
  | [] => some []
  | v :: rest => (reread? v).bind fun w => (rereadItems? rest).map (w :: ·)

def rereadMembers? : List (String × Json) → Option (List (String × Json))
  | [] => some []
  | (key, v) :: rest => (reread? v).bind fun w => (rereadMembers? rest).map ((key, w) :: ·)

end

mutual

/-- How deep containers nest in a value. -/
def nesting : Json → Nat
  | .list items => nestingItems items + 1
  | .record members => nestingMembers members + 1
  | _ => 0

def nestingItems : List Json → Nat
  | [] => 0
  | v :: rest => max (nesting v) (nestingItems rest)

def nestingMembers : List (String × Json) → Nat
  | [] => 0
  | (_, v) :: rest => max (nesting v) (nestingMembers rest)

end

mutual

def tokens : Json → List Token
  | .list [] => [.openList, .closeList]
  | .list (v :: rest) => .openList :: (tokens v ++ tokensItems rest ++ [.closeList])
  | .record [] => [.openRecord, .closeRecord]
  | .record ((key, v) :: rest) =>
    .openRecord :: .scalar (.text key) :: .colon :: (tokens v ++ tokensMembers rest ++ [.closeRecord])
  | v => [.scalar v]

def tokensItems : List Json → List Token
  | [] => []
  | v :: rest => .comma :: (tokens v ++ tokensItems rest)

def tokensMembers : List (String × Json) → List Token
  | [] => []
  | (key, v) :: rest =>
    .comma :: .scalar (.text key) :: .colon :: (tokens v ++ tokensMembers rest)

end

theorem nestingItems_le {items : List Json} {n : Nat} (h : ∀ v ∈ items, nesting v ≤ n) :
    nestingItems items ≤ n := by
  induction items with
  | nil => exact Nat.zero_le n
  | cons v rest ih =>
    obtain ⟨hv, hrest⟩ := List.forall_mem_cons.1 h
    exact max_le hv (ih hrest)

theorem nestingMembers_le {members : List (String × Json)} {n : Nat}
    (h : ∀ p ∈ members, nesting p.2 ≤ n) : nestingMembers members ≤ n := by
  induction members with
  | nil => exact Nat.zero_le n
  | cons p rest ih =>
    obtain ⟨hv, hrest⟩ := List.forall_mem_cons.1 h
    exact max_le hv (ih hrest)

/-- The reader goes deep enough for a list of records without containers in them. -/
theorem nesting_records_le {items : List (List (String × Json))}
    (h : ∀ item ∈ items, ∀ p ∈ item, nesting p.2 = 0) :
    nesting (.list (items.map .record)) ≤ maxDepth := by
  have hitems : nestingItems (items.map .record) ≤ 1 := by
    refine nestingItems_le fun v hv => ?_
    obtain ⟨item, hitem, rfl⟩ := List.mem_map.1 hv
    exact Nat.succ_le_succ (nestingMembers_le fun p hp => (h item hitem p hp).le)
  exact (Nat.succ_le_succ hitems).trans (by decide)

theorem rereadItems?_eq_some_iff {items items' : List Json} :
    rereadItems? items = some items' ↔ List.Forall₂ (fun v w => reread? v = some w) items items' := by
  induction items generalizing items' with
  | nil =>
    rw [rereadItems?, List.forall₂_nil_left_iff, Option.some_inj, eq_comm]
  | cons v rest ih =>
    simp only [rereadItems?, Option.bind_eq_some_iff, Option.map_eq_some_iff, ih,
      List.forall₂_cons_left_iff]
    constructor
    · rintro ⟨w, hw, rest', hrest, rfl⟩
      exact ⟨w, rest', hw, hrest, rfl⟩
    · rintro ⟨w, rest', hw, hrest, rfl⟩
      exact ⟨w, hw, rest', hrest, rfl⟩

theorem rereadMembers?_eq_some_iff {members members' : List (String × Json)} :
    rereadMembers? members = some members' ↔
      List.Forall₂ (fun p q => p.1 = q.1 ∧ reread? p.2 = some q.2) members members' := by
  induction members generalizing members' with
  | nil =>
    rw [rereadMembers?, List.forall₂_nil_left_iff, Option.some_inj, eq_comm]
  | cons p rest ih =>
    obtain ⟨key, v⟩ := p
    simp only [rereadMembers?, Option.bind_eq_some_iff, Option.map_eq_some_iff, ih,
      List.forall₂_cons_left_iff]
    constructor
    · rintro ⟨w, hw, rest', hrest, rfl⟩
      exact ⟨(key, w), rest', ⟨rfl, hw⟩, hrest, rfl⟩
    · rintro ⟨⟨_, w⟩, rest', ⟨rfl, hw⟩, hrest, rfl⟩
      exact ⟨w, hw, rest', hrest, rfl⟩

/-! ## Numbers -/

/-- What has no parts and is no text: what a number text can be read as. -/
inductive IsNumber : Json → Prop
  | int (i : Int) : IsNumber (.int i)
  | real (x : Float) : IsNumber (.real x)

theorem isNumber_of_real? {negative : Bool} {s : Significand} {e : Int} {v : Json}
    (h : real? negative s e = some v) : IsNumber v := by
  unfold real? at h
  split at h
  · split at h
    · cases h
    · obtain rfl := Option.some.inj h
      exact .real _
  · obtain ⟨x, -, rfl⟩ := Option.map_eq_some_iff.1 h
    exact .real _

theorem isNumber_of_ofWhole? {negative : Bool} {s : Significand} {v : Json}
    (h : ofWhole? negative s = some v) : IsNumber v := by
  unfold ofWhole? at h
  split at h
  · exact isNumber_of_real? h
  · split at h
    · obtain rfl := Option.some.inj h
      exact .int _
    · split at h
      · obtain rfl := Option.some.inj h
        exact .real _
      · obtain rfl := Option.some.inj h
        exact .int _

theorem isNumber_of_unsigned? {negative : Bool} {s : List Char} {v : Json}
    (h : unsigned? negative s = some v) : IsNumber v := by
  unfold unsigned? at h
  simp only [Option.bind_eq_bind] at h
  split at h
  · cases h
  · split at h
    · split at h
      · cases h
      · obtain ⟨e, -, h⟩ := Option.bind_eq_some_iff.1 h
        exact isNumber_of_real? h
    · obtain ⟨e, -, h⟩ := Option.bind_eq_some_iff.1 h
      cases e with
      | none => exact isNumber_of_ofWhole? h
      | some e => exact isNumber_of_real? h

theorem isNumber_of_number? {s : List Char} {v : Json} (h : number? s = some v) : IsNumber v := by
  unfold number? at h
  split at h
  · exact isNumber_of_unsigned? h
  · exact isNumber_of_unsigned? h

theorem IsNumber.tokens_eq {v : Json} (h : IsNumber v) : tokens v = [.scalar v] := by
  cases h with
  | int i => rfl
  | real x => rfl

theorem IsNumber.nesting_eq {v : Json} (h : IsNumber v) : nesting v = 0 := by
  cases h with
  | int i => rfl
  | real x => rfl

mutual

theorem nesting_of_reread? {v w : Json} (h : reread? v = some w) : nesting w = nesting v := by
  cases v with
  | int i => exact (isNumber_of_number? h).nesting_eq
  | real x => exact (isNumber_of_number? h).nesting_eq
  | list items =>
    obtain ⟨items', hitems, rfl⟩ := Option.map_eq_some_iff.1 h
    rw [nesting, nesting, nestingItems_of_reread? hitems]
  | record members =>
    obtain ⟨members', hmembers, rfl⟩ := Option.map_eq_some_iff.1 h
    rw [nesting, nesting, nestingMembers_of_reread? hmembers]
  | _ =>
    obtain rfl := Option.some.inj h
    rfl

theorem nestingItems_of_reread? {items items' : List Json} (h : rereadItems? items = some items') :
    nestingItems items' = nestingItems items := by
  cases items with
  | nil =>
    obtain rfl := Option.some.inj h
    rfl
  | cons v rest =>
    obtain ⟨w, hw, h⟩ := Option.bind_eq_some_iff.1 h
    obtain ⟨rest', hrest, rfl⟩ := Option.map_eq_some_iff.1 h
    rw [nestingItems, nestingItems, nesting_of_reread? hw, nestingItems_of_reread? hrest]

theorem nestingMembers_of_reread? {members members' : List (String × Json)}
    (h : rereadMembers? members = some members') : nestingMembers members' = nestingMembers members := by
  cases members with
  | nil =>
    obtain rfl := Option.some.inj h
    rfl
  | cons member rest =>
    obtain ⟨key, v⟩ := member
    obtain ⟨w, hw, h⟩ := Option.bind_eq_some_iff.1 h
    obtain ⟨rest', hrest, rfl⟩ := Option.map_eq_some_iff.1 h
    rw [nestingMembers, nestingMembers, nesting_of_reread? hw, nestingMembers_of_reread? hrest]

end

/-! ## The lexer -/

namespace Lexer

/-- The tokens of a text that the lexer stands in front of. -/
def lex (l : Lexer) (s : List Char) : Option (List Token) := (s.foldlM step? l).bind finish?

variable {read : List Token} {rest : List Char}

theorem lex_cons (l : Lexer) (c : Char) (s : List Char) :
    lex l (c :: s) = (step? l c).bind fun next => lex next s := by
  rw [lex, List.foldlM_cons, Option.bind_eq_bind, Option.bind_assoc]
  rfl

theorem lex_of_step {l next : Lexer} {c : Char} (h : step? l c = some next) (s : List Char) :
    lex l (c :: s) = lex next s := by
  rw [lex_cons, h, Option.bind_some]

theorem lex_append {l next : Lexer} {s : List Char} (h : s.foldlM step? l = some next) (t : List Char) :
    lex l (s ++ t) = lex next t := by
  rw [lex, List.foldlM_append, h]
  rfl

theorem lex_space {c : Char} (hc : isSpace c = true) :
    lex ⟨read, .idle⟩ (c :: rest) = lex ⟨read, .idle⟩ rest := by
  refine lex_of_step ?_ rest
  show some (enter read c) = _
  rw [enter, if_pos hc]

theorem lex_newline (depth : Nat) : lex ⟨read, .idle⟩ (newline depth ++ rest) = lex ⟨read, .idle⟩ rest := by
  have hspaces (n : Nat) : lex ⟨read, .idle⟩ (List.replicate n ' ' ++ rest) = lex ⟨read, .idle⟩ rest := by
    induction n with
    | zero => rfl
    | succ n ih => rw [List.replicate_succ, List.cons_append, lex_space rfl, ih]
  rw [newline, List.cons_append, lex_space rfl, hspaces]

/-! ### Strings -/

theorem hexDigit?_digitChar : ∀ d < 16, hexDigit? (Nat.digitChar d) = some d := by decide

/-- A control character in hexadecimal digits stands for the character. -/
theorem foldlM_control {c : Char} (hc : c.toNat < 0x20) (s : List Char) :
    ['\\', 'u', '0', '0', Nat.digitChar (c.toNat / 16), Nat.digitChar (c.toNat % 16)].foldlM step?
      ⟨read, .string s⟩ = some ⟨read, .string (c :: s)⟩ := by
  have hhigh := hexDigit?_digitChar (c.toNat / 16) (by omega)
  have hlow := hexDigit?_digitChar (c.toNat % 16) (by omega)
  have hvalue : (((0 * 16 + 0) * 16 + 0) * 16 + c.toNat / 16) * 16 + c.toNat % 16 = c.toNat := by omega
  have hunit : ofUnit? s none c.toNat = some (.string (c :: s)) := by
    rw [ofUnit?, if_neg (by omega), if_neg (by omega), Char.ofNat_toNat]
  have hthird : step? ⟨read, .unit s none 2 0⟩ (Nat.digitChar (c.toNat / 16)) =
      some ⟨read, .unit s none 3 (c.toNat / 16)⟩ := by
    simp [step?, hhigh]
  have hfourth : step? ⟨read, .unit s none 3 (c.toNat / 16)⟩ (Nat.digitChar (c.toNat % 16)) =
      some ⟨read, .string (c :: s)⟩ := by
    have hdigits : c.toNat / 16 * 16 + c.toNat % 16 = c.toNat := by omega
    simp [step?, hlow, hdigits, hunit]
  show [Nat.digitChar (c.toNat / 16), Nat.digitChar (c.toNat % 16)].foldlM step?
    ⟨read, .unit s none 2 0⟩ = _
  rw [List.foldlM_cons, hthird, Option.bind_eq_bind, Option.bind_some, List.foldlM_cons, hfourth]
  rfl

/-- What a character is escaped to stands for the character. -/
theorem foldlM_escape (c : Char) (s : List Char) :
    (escape c).foldlM step? ⟨read, .string s⟩ = some ⟨read, .string (c :: s)⟩ := by
  by_cases hshort : c ∈ ['"', '\\', '\x08', '\x0c', '\n', '\r', '\t']
  · simp only [List.mem_cons, List.not_mem_nil, or_false] at hshort
    rcases hshort with rfl | rfl | rfl | rfl | rfl | rfl | rfl <;> rfl
  · simp only [List.mem_cons, List.not_mem_nil, or_false, not_or] at hshort
    have hescape : escape c = if c.toNat < 0x20 then
        ['\\', 'u', '0', '0', Nat.digitChar (c.toNat / 16), Nat.digitChar (c.toNat % 16)] else [c] := by
      simp only [escape, hshort, if_false]
    rw [hescape]
    split
    next h => exact foldlM_control h s
    next h =>
      have hstep : step? ⟨read, .string s⟩ c = some ⟨read, .string (c :: s)⟩ := by
        show (if c = '"' then _ else if c = '\\' then _ else if c.toNat < 0x20 then _ else _) = _
        rw [if_neg hshort.1, if_neg hshort.2.1, if_neg h]
      rw [List.foldlM_cons, hstep]
      rfl

theorem foldlM_flatMap_escape (cs s : List Char) :
    (cs.flatMap escape).foldlM step? ⟨read, .string s⟩ = some ⟨read, .string (cs.reverse ++ s)⟩ := by
  induction cs generalizing s with
  | nil => rfl
  | cons c cs ih =>
    rw [List.flatMap_cons, List.foldlM_append, foldlM_escape, Option.bind_eq_bind, Option.bind_some, ih,
      List.reverse_cons, List.append_assoc, List.singleton_append]

theorem lex_quoted (s : String) :
    lex ⟨read, .idle⟩ (quoted s ++ rest) = lex ⟨.scalar (.text s) :: read, .idle⟩ rest := by
  have hopen : step? ⟨read, .idle⟩ '"' = some ⟨read, .string []⟩ := rfl
  have hclose : step? ⟨read, .string (s.toList.reverse ++ [])⟩ '"' =
      some ⟨.scalar (.text s) :: read, .idle⟩ := by
    rw [List.append_nil]
    show some (⟨.scalar (.text (String.ofList s.toList.reverse.reverse)) :: read, .idle⟩ : Lexer) = _
    rw [List.reverse_reverse, String.ofList_toList]
  rw [quoted, List.append_assoc, List.cons_append, lex_of_step hopen,
    lex_append (foldlM_flatMap_escape s.toList []), List.singleton_append, lex_of_step hclose]

theorem lex_key (key : String) : lex ⟨read, .idle⟩ (quoted key ++ ':' :: ' ' :: rest) =
    lex ⟨.colon :: .scalar (.text key) :: read, .idle⟩ rest := by
  have hcolon (read : List Token) : step? ⟨read, .idle⟩ ':' = some ⟨.colon :: read, .idle⟩ := rfl
  rw [lex_quoted, lex_of_step (hcolon _), lex_space rfl]

/-! ### Words -/

/-- A text that a word cannot run into. -/
def EndsWord (rest : List Char) : Prop := ∀ c ∈ rest.head?, endsWord c = true

/-- A text of characters that words consist of. -/
structure IsWord (w : List Char) : Prop where
  ne_nil : w ≠ []
  chars : ∀ c ∈ w, endsWord c = false

theorem isWord_of_all {w : List Char} (hne : w ≠ []) (h : (w.all fun c => !endsWord c) = true) :
    IsWord w := by
  refine ⟨hne, fun c hc => ?_⟩
  simpa using List.all_eq_true.1 h c hc

theorem step?_word {c : Char} (hc : endsWord c = false) (s : List Char) :
    step? ⟨read, .word s⟩ c = some ⟨read, .word (c :: s)⟩ := by
  show (if endsWord c = true then _ else _) = _
  rw [hc, if_neg Bool.false_ne_true]

theorem enter_word {c : Char} (hc : endsWord c = false) : enter read c = ⟨read, .word [c]⟩ := by
  rw [endsWord, Bool.or_eq_false_iff, Bool.or_eq_false_iff, Option.isSome_eq_false_iff,
    Option.isNone_iff_eq_none, beq_eq_false_iff_ne] at hc
  rw [enter, hc.1.1, if_neg Bool.false_ne_true, if_neg hc.1.2, hc.2]

theorem foldlM_word {w : List Char} (hw : ∀ c ∈ w, endsWord c = false) (s : List Char) :
    w.foldlM step? ⟨read, .word s⟩ = some ⟨read, .word (w.reverse ++ s)⟩ := by
  induction w generalizing s with
  | nil => rfl
  | cons c w ih =>
    obtain ⟨hc, hrest⟩ := List.forall_mem_cons.1 hw
    rw [List.foldlM_cons, step?_word hc, Option.bind_eq_bind, Option.bind_some, ih hrest,
      List.reverse_cons, List.append_assoc, List.singleton_append]

theorem lex_word {w : List Char} (hw : IsWord w) (hrest : EndsWord rest) :
    lex ⟨read, .idle⟩ (w ++ rest) = (Token.ofWord? w).bind fun t => lex ⟨t :: read, .idle⟩ rest := by
  obtain ⟨c, w, rfl⟩ := List.exists_cons_of_ne_nil hw.ne_nil
  obtain ⟨hc, htail⟩ := List.forall_mem_cons.1 hw.chars
  have hbegin : step? ⟨read, .idle⟩ c = some ⟨read, .word [c]⟩ := congrArg some (enter_word hc)
  have hread : (w.reverse ++ [c]).reverse = c :: w := by simp
  rw [List.cons_append, lex_of_step hbegin, lex_append (foldlM_word htail [c])]
  cases rest with
  | nil =>
    show (Token.ofWord? (w.reverse ++ [c]).reverse).map (fun t => (t :: read).reverse) = _
    rw [hread, Option.map_eq_bind]
    rfl
  | cons d rest =>
    have hd : step? ⟨read, .word (w.reverse ++ [c])⟩ d =
        (Token.ofWord? (c :: w)).map fun t => enter (t :: read) d := by
      show (if endsWord d = true then _ else _) = _
      rw [hrest d rfl, if_pos rfl, hread]
    rw [lex_cons, hd, Option.bind_map]
    simp only [lex_cons]
    rfl

end Lexer

open Lexer

theorem endsWord_of_isNumberChar {c : Char} (h : IsNumberChar c) : endsWord c = false := by
  rcases h with h | h
  · obtain ⟨hlo, hhi⟩ : 48 ≤ c.toNat ∧ c.toNat ≤ 57 := Char.isDigit_iff_toNat.1 h
    rw [← Char.ofNat_toNat c]
    generalize c.toNat = n at hlo hhi
    interval_cases n <;> rfl
  · simp only [List.mem_cons, List.not_mem_nil, or_false] at h
    rcases h with rfl | rfl | rfl | rfl <;> rfl

/-- A word that is read as a number if it is anything. -/
structure IsNumberWord (w : List Char) : Prop extends IsWord w where
  reads : Token.ofWord? w = (number? w).map Token.scalar

theorem isNumberWord_signedText {s : List Char} {q : ℚ} (h : NumberText s q) (negative : Bool) :
    IsNumberWord (signedText negative s) := by
  obtain ⟨a, r, rfl, ha⟩ := h.starts
  obtain ⟨b, t, hb, hchar⟩ : ∃ b t, signedText negative (a :: r) = b :: t ∧ IsNumberChar b := by
    cases negative with
    | false => exact ⟨a, r, rfl, .inl ha⟩
    | true => exact ⟨'-', a :: r, rfl, .inr (by simp)⟩
  have hne (word : String) {c : Char} {u : List Char} (hword : word.toList = c :: u)
      (hc : ¬ IsNumberChar c) : signedText negative (a :: r) ≠ word.toList := by
    rw [hb, hword]
    intro heq
    exact hc ((List.cons.inj heq).1 ▸ hchar)
  refine ⟨⟨?_, ?_⟩, ?_⟩
  · rw [hb]
    exact List.cons_ne_nil b t
  · intro c hc
    refine endsWord_of_isNumberChar ?_
    cases negative with
    | false => exact h.chars c hc
    | true => exact List.forall_mem_cons.2 ⟨.inr (by simp), h.chars⟩ c hc
  · have hletter : ¬ IsNumberChar 'n' ∧ ¬ IsNumberChar 't' ∧ ¬ IsNumberChar 'f' := by
      unfold IsNumberChar
      decide
    rw [Token.ofWord?, if_neg (hne "null" rfl hletter.1), if_neg (hne "true" rfl hletter.2.1),
      if_neg (hne "false" rfl hletter.2.2)]

theorem isNumberWord_toString (i : Int) : IsNumberWord (toString i).toList := by
  rw [toString_eq_signedText, String.toList_ofList]
  exact isNumberWord_signedText (numberText_toDigits i.natAbs) _

theorem isNumberWord_render (x : Float) : IsNumberWord (Decimal.Layout.json.render x).toList := by
  unfold Decimal.Layout.render
  split
  · rw [Decimal.Layout.finiteText_eq, String.toList_ofList]
    exact isNumberWord_signedText (Decimal.Layout.numberText_bodyText (.inr rfl) _) _
  · unfold Decimal.nonFinite
    split
    · exact ⟨isWord_of_all (by decide) rfl, rfl⟩
    · split
      · exact ⟨isWord_of_all (by decide) rfl, rfl⟩
      · exact ⟨isWord_of_all (by decide) rfl, rfl⟩

section

variable {read : List Token} {rest : List Char}

theorem EndsWord.of_newline (depth : Nat) : EndsWord (newline depth ++ rest) := by
  intro c hc
  obtain rfl := Option.some.inj hc
  rfl

theorem EndsWord.of_prettyItems {depth : Nat} {items : List Json} (hrest : EndsWord rest) :
    EndsWord (prettyItems depth items ++ rest) := by
  cases items with
  | nil => rwa [prettyItems, List.nil_append]
  | cons v items =>
    intro c hc
    rw [prettyItems] at hc
    obtain rfl := Option.some.inj hc
    rfl

theorem EndsWord.of_prettyMembers {depth : Nat} {members : List (String × Json)}
    (hrest : EndsWord rest) : EndsWord (prettyMembers depth members ++ rest) := by
  cases members with
  | nil => rwa [prettyMembers, List.nil_append]
  | cons member members =>
    obtain ⟨key, v⟩ := member
    intro c hc
    rw [prettyMembers] at hc
    obtain rfl := Option.some.inj hc
    rfl

end

/-- A number is read as its text. -/
theorem lex_number {w : List Char} (hw : IsNumberWord w) {read : List Token} {rest : List Char}
    (hrest : EndsWord rest) : lex ⟨read, .idle⟩ (w ++ rest) =
      (number? w).bind fun v => lex ⟨(tokens v).reverse ++ read, .idle⟩ rest := by
  rw [lex_word hw.toIsWord hrest, hw.reads]
  cases h : number? w with
  | none => rfl
  | some v =>
    rw [Option.map_some, Option.bind_some, Option.bind_some, (isNumber_of_number? h).tokens_eq]
    rfl

mutual

/-- The tokens of a written value are those of the reread value. -/
theorem lex_pretty (v : Json) (depth : Nat) {read : List Token} {rest : List Char}
    (hrest : EndsWord rest) : lex ⟨read, .idle⟩ (pretty depth v ++ rest) =
      (reread? v).bind fun w => lex ⟨(tokens w).reverse ++ read, .idle⟩ rest := by
  have hliteral (word : String) (hword : IsWord word.toList) :
      lex ⟨read, .idle⟩ (word.toList ++ rest) =
        (Token.ofWord? word.toList).bind fun t => lex ⟨t :: read, .idle⟩ rest :=
    lex_word hword hrest
  cases v with
  | null => exact hliteral "null" (isWord_of_all (by decide) rfl)
  | bool b =>
    cases b with
    | true => exact hliteral "true" (isWord_of_all (by decide) rfl)
    | false => exact hliteral "false" (isWord_of_all (by decide) rfl)
  | int i => exact lex_number (isNumberWord_toString i) hrest
  | real x => exact lex_number (isNumberWord_render x) hrest
  | text s => exact lex_quoted s
  | list items =>
    have hopen : step? ⟨read, .idle⟩ '[' = some ⟨.openList :: read, .idle⟩ := rfl
    have hclose (read : List Token) : step? ⟨read, .idle⟩ ']' = some ⟨.closeList :: read, .idle⟩ := rfl
    cases items with
    | nil => exact (lex_of_step hopen _).trans (lex_of_step (hclose _) _)
    | cons v items =>
      have hend : EndsWord (newline depth ++ ']' :: rest) := EndsWord.of_newline depth
      rw [pretty]
      simp only [List.cons_append, List.append_assoc, List.nil_append]
      rw [lex_of_step hopen, lex_newline, lex_pretty v (depth + 1) (EndsWord.of_prettyItems hend), reread?,
        rereadItems?, Option.map_bind, Option.bind_assoc]
      refine congrArg (Option.bind _) (funext fun w => ?_)
      rw [lex_prettyItems items (depth + 1) hend, Function.comp, Option.map_map, Option.bind_map]
      refine congrArg (Option.bind _) (funext fun ws => ?_)
      rw [lex_newline, lex_of_step (hclose _)]
      simp [tokens]
  | record members =>
    have hopen : step? ⟨read, .idle⟩ '\x7b' = some ⟨.openRecord :: read, .idle⟩ := rfl
    have hclose (read : List Token) : step? ⟨read, .idle⟩ '\x7d' = some ⟨.closeRecord :: read, .idle⟩ :=
      rfl
    cases members with
    | nil => exact (lex_of_step hopen _).trans (lex_of_step (hclose _) _)
    | cons member members =>
      obtain ⟨key, v⟩ := member
      have hend : EndsWord (newline depth ++ '\x7d' :: rest) := EndsWord.of_newline depth
      rw [pretty]
      simp only [List.cons_append, List.append_assoc, List.nil_append]
      rw [lex_of_step hopen, lex_newline, lex_key,
        lex_pretty v (depth + 1) (EndsWord.of_prettyMembers hend), reread?, rereadMembers?,
        Option.map_bind, Option.bind_assoc]
      refine congrArg (Option.bind _) (funext fun w => ?_)
      rw [lex_prettyMembers members (depth + 1) hend, Function.comp, Option.map_map, Option.bind_map]
      refine congrArg (Option.bind _) (funext fun ws => ?_)
      rw [lex_newline, lex_of_step (hclose _)]
      simp [tokens]

theorem lex_prettyItems (items : List Json) (depth : Nat) {read : List Token} {rest : List Char}
    (hrest : EndsWord rest) : lex ⟨read, .idle⟩ (prettyItems depth items ++ rest) =
      (rereadItems? items).bind fun ws => lex ⟨(tokensItems ws).reverse ++ read, .idle⟩ rest := by
  cases items with
  | nil => rfl
  | cons v items =>
    have hcomma : step? ⟨read, .idle⟩ ',' = some ⟨.comma :: read, .idle⟩ := rfl
    rw [prettyItems]
    simp only [List.cons_append, List.append_assoc]
    rw [lex_of_step hcomma, lex_newline, lex_pretty v depth (EndsWord.of_prettyItems hrest), rereadItems?,
      Option.bind_assoc]
    refine congrArg (Option.bind _) (funext fun w => ?_)
    rw [lex_prettyItems items depth hrest, Option.bind_map]
    simp [tokensItems]

theorem lex_prettyMembers (members : List (String × Json)) (depth : Nat) {read : List Token}
    {rest : List Char} (hrest : EndsWord rest) :
    lex ⟨read, .idle⟩ (prettyMembers depth members ++ rest) =
      (rereadMembers? members).bind fun ws => lex ⟨(tokensMembers ws).reverse ++ read, .idle⟩ rest := by
  cases members with
  | nil => rfl
  | cons member members =>
    obtain ⟨key, v⟩ := member
    have hcomma : step? ⟨read, .idle⟩ ',' = some ⟨.comma :: read, .idle⟩ := rfl
    rw [prettyMembers]
    simp only [List.cons_append, List.append_assoc]
    rw [lex_of_step hcomma, lex_newline, lex_key,
      lex_pretty v depth (EndsWord.of_prettyMembers hrest), rereadMembers?, Option.bind_assoc]
    refine congrArg (Option.bind _) (funext fun w => ?_)
    rw [lex_prettyMembers members depth hrest, Option.bind_map]
    simp [tokensMembers]

end

/-! ## The reader -/

namespace Reader

/-- The reader behind some tokens. -/
def read (ts : List Token) (r : Reader) : Option Reader := ts.foldlM step? r

theorem read_cons (t : Token) (ts : List Token) (r : Reader) :
    read (t :: ts) r = (step? r t).bind (read ts) := List.foldlM_cons

theorem read_append (ts us : List Token) (r : Reader) :
    read (ts ++ us) r = (read ts r).bind (read us) := List.foldlM_append

theorem read_singleton (t : Token) (r : Reader) : read [t] r = step? r t := by
  rw [read_cons]
  exact bind_pure (step? r t)

theorem enter_eq {frames : List Frame} (h : frames.length < maxDepth) (f : Frame) (e : Expected) :
    enter frames f e = some ⟨f :: frames, e⟩ := if_pos h

end Reader

open Reader

/-- The tokens of a value begin with none that closes. -/
theorem read_valueOrClose (v : Json) (frames : List Frame) :
    read (tokens v) ⟨frames, .valueOrClose⟩ = read (tokens v) ⟨frames, .value⟩ := by
  cases v with
  | list items => cases items <;> rfl
  | record members => cases members <;> rfl
  | _ => rfl

mutual

/-- The tokens of a value put it into the container around it, whatever that holds already. -/
theorem read_tokens (v : Json) (frames : List Frame) (h : frames.length + nesting v ≤ maxDepth) :
    read (tokens v) ⟨frames, .value⟩ = deliver frames v := by
  cases v with
  | list items =>
    rw [nesting] at h
    have hroom : frames.length < maxDepth := by omega
    have hopen : step? ⟨frames, .value⟩ .openList = some ⟨.items [] :: frames, .valueOrClose⟩ :=
      enter_eq hroom _ _
    cases items with
    | nil =>
      rw [tokens, read_cons, hopen, Option.bind_some, read_singleton]
      rfl
    | cons v rest =>
      rw [nestingItems] at h
      have hv := read_tokens v (.items [] :: frames) (by rw [List.length_cons]; omega)
      have hrest := read_tokensItems rest [v] frames (by omega)
      rw [tokens, read_cons, hopen, Option.bind_some, read_append, read_append, read_valueOrClose, hv,
        deliver, Option.bind_some, hrest, Option.bind_some, read_singleton]
      show deliver frames (.list (rest.reverse ++ [v]).reverse) = _
      rw [List.reverse_append, List.reverse_reverse]
      rfl
  | record members =>
    rw [nesting] at h
    have hroom : frames.length < maxDepth := by omega
    have hopen : step? ⟨frames, .value⟩ .openRecord = some ⟨.members [] :: frames, .keyOrClose⟩ :=
      enter_eq hroom _ _
    cases members with
    | nil =>
      rw [tokens, read_cons, hopen, Option.bind_some, read_singleton]
      rfl
    | cons member rest =>
      obtain ⟨key, v⟩ := member
      rw [nestingMembers] at h
      have hkey : step? ⟨.members [] :: frames, .keyOrClose⟩ (.scalar (.text key)) =
          some ⟨.member [] key :: frames, .colon⟩ := rfl
      have hcolon : step? ⟨.member [] key :: frames, .colon⟩ .colon =
          some ⟨.member [] key :: frames, .value⟩ := rfl
      have hv := read_tokens v (.member [] key :: frames) (by rw [List.length_cons]; omega)
      have hrest := read_tokensMembers rest [(key, v)] frames (by omega)
      rw [tokens, read_cons, hopen, Option.bind_some, read_cons, hkey, Option.bind_some, read_cons,
        hcolon, Option.bind_some, read_append, read_append, hv, deliver, Option.bind_some, hrest,
        Option.bind_some, read_singleton]
      show deliver frames (.record (rest.reverse ++ [(key, v)]).reverse) = _
      rw [List.reverse_append, List.reverse_reverse]
      rfl
  | _ =>
    rw [tokens, read_singleton]
    · rfl
    all_goals simp

theorem read_tokensItems (items done : List Json) (frames : List Frame)
    (h : frames.length + 1 + nestingItems items ≤ maxDepth) :
    read (tokensItems items) ⟨.items done :: frames, .commaOrClose⟩ =
      some ⟨.items (items.reverse ++ done) :: frames, .commaOrClose⟩ := by
  cases items with
  | nil => rfl
  | cons v rest =>
    rw [nestingItems] at h
    have hcomma : step? ⟨.items done :: frames, .commaOrClose⟩ .comma =
        some ⟨.items done :: frames, .value⟩ := rfl
    have hv := read_tokens v (.items done :: frames) (by rw [List.length_cons]; omega)
    have hrest := read_tokensItems rest (v :: done) frames (by omega)
    rw [tokensItems, read_cons, hcomma, Option.bind_some, read_append, hv, deliver, Option.bind_some,
      hrest, List.reverse_cons, List.append_assoc, List.singleton_append]

theorem read_tokensMembers (members done : List (String × Json)) (frames : List Frame)
    (h : frames.length + 1 + nestingMembers members ≤ maxDepth) :
    read (tokensMembers members) ⟨.members done :: frames, .commaOrClose⟩ =
      some ⟨.members (members.reverse ++ done) :: frames, .commaOrClose⟩ := by
  cases members with
  | nil => rfl
  | cons member rest =>
    obtain ⟨key, v⟩ := member
    rw [nestingMembers] at h
    have hcomma : step? ⟨.members done :: frames, .commaOrClose⟩ .comma =
        some ⟨.members done :: frames, .key⟩ := rfl
    have hkey : step? ⟨.members done :: frames, .key⟩ (.scalar (.text key)) =
        some ⟨.member done key :: frames, .colon⟩ := rfl
    have hcolon : step? ⟨.member done key :: frames, .colon⟩ .colon =
        some ⟨.member done key :: frames, .value⟩ := rfl
    have hv := read_tokens v (.member done key :: frames) (by rw [List.length_cons]; omega)
    have hrest := read_tokensMembers rest ((key, v) :: done) frames (by omega)
    rw [tokensMembers, read_cons, hcomma, Option.bind_some, read_cons, hkey, Option.bind_some, read_cons,
      hcolon, Option.bind_some, read_append, hv, deliver, Option.bind_some, hrest, List.reverse_cons,
      List.append_assoc, List.singleton_append]

end

theorem ofTokens?_tokens {v : Json} (h : nesting v ≤ maxDepth) : ofTokens? (tokens v) = some v := by
  have hread : read (tokens v) Reader.start = some ⟨[], .nothing v⟩ :=
    read_tokens v [] (by simpa using h)
  unfold ofTokens?
  rw [← Reader.read, hread]
  rfl

/-- **What is written is read back**, numbers as their texts are read. -/
theorem parse?_render {v : Json} (h : nesting v ≤ maxDepth) : parse? v.render = reread? v := by
  have hlex : lex ⟨[], .idle⟩ (pretty 0 v ++ []) =
      (reread? v).bind fun w => lex ⟨(tokens w).reverse ++ [], .idle⟩ [] :=
    lex_pretty v 0 fun _ hc => nomatch hc
  rw [List.append_nil] at hlex
  have htokens : tokens? (pretty 0 v) = (reread? v).map tokens := by
    show lex ⟨[], .idle⟩ (pretty 0 v) = _
    rw [hlex, Option.map_eq_bind]
    refine congrArg (Option.bind _) (funext fun w => ?_)
    show some ((tokens w).reverse ++ []).reverse = _
    rw [List.append_nil, List.reverse_reverse]
    rfl
  rw [parse?, render, String.toList_ofList, htokens]
  cases hv : reread? v with
  | none => rfl
  | some w =>
    have hw : nesting w ≤ maxDepth := (nesting_of_reread? hv).trans_le h
    rw [Option.map_some, Option.bind_some, ofTokens?_tokens hw]

end SkillBoard.Json
