import Ripple.Json.Token
import Ripple.Json.Writer
import Ripple.Proofs.Json.Numeral

/-!
# The tokens of a written value

`Spells` says which tokens a text is cut into, whatever stands around it. Texts are put together as
their tokens are (`Spells.append`), so the compact and the indented form of a value spell the same
tokens, namely `tokensOf` (`spells_write`, `spells_writePretty`).
-/

namespace Ripple.Json

open Text

/-! ## Running the machine -/

/-- The tokens of a text that the machine reads on from where it stands. -/
def Lexer.run (l : Lexer) (text : List Char) : Option (List Token) :=
  (text.foldlM Lexer.step l).bind Lexer.finish

theorem tokens?_eq_run (text : List Char) : tokens? text = Lexer.run ⟨.between, []⟩ text := rfl

variable {l l' : Lexer} {c : Char} {word xs ys : List Char} {token : Token}
  {tokens more tail : List Token} {value : Json}

theorem Lexer.run_cons (h : l.step c = some l') : l.run (c :: xs) = l'.run xs := by
  rw [run, List.foldlM_cons, h]
  rfl

/-- No word or number goes on here. -/
def Stops (xs : List Char) : Prop := ∀ c ∈ xs.head?, isWordPart c = false

theorem stops_nil : Stops [] := by
  simp [Stops]

theorem stops_cons (h : isWordPart c = false) : Stops (c :: xs) := by
  simpa [Stops] using h

theorem Stops.append (hxs : Stops xs) (hys : Stops ys) : Stops (xs ++ ys) := by
  cases xs with
  | nil => exact hys
  | cons c xs => exact hxs

/-- Between two tokens the text is cut into the given ones, and no word goes on after it. -/
def Spells (xs : List Char) (tokens : List Token) : Prop :=
  ∀ before ys, Stops ys →
    Lexer.run ⟨.between, before⟩ (xs ++ ys) = Lexer.run ⟨.between, tokens.reverse ++ before⟩ ys

theorem Spells.tokens? (h : Spells xs tokens) : tokens? xs = some tokens := by
  have hrun := h [] [] stops_nil
  rw [List.append_nil, List.append_nil] at hrun
  rw [tokens?_eq_run, hrun]
  simp [Lexer.run, Lexer.finish, pure]

/-! ## Putting texts together -/

theorem spells_nil : Spells [] [] := fun _ _ _ => rfl

theorem Spells.append (hxs : Spells xs tokens) (hys : Spells ys more) (hstops : Stops ys) :
    Spells (xs ++ ys) (tokens ++ more) := by
  intro before rest hrest
  rw [List.append_assoc, hxs _ _ (hstops.append hrest), hys _ _ hrest, List.reverse_append,
    List.append_assoc]

theorem Spells.punctuation (h : Spells xs tokens) (hc : punctuation? c = some token) :
    Spells (c :: xs) (token :: tokens) := by
  have hstep (before : List Token) :
      Lexer.step ⟨.between, before⟩ c = some ⟨.between, token :: before⟩ := by
    unfold punctuation? at hc
    split at hc <;> cases hc <;> rfl
  intro before rest hrest
  rw [List.cons_append, Lexer.run_cons (hstep before), h _ _ hrest, List.reverse_cons,
    List.append_assoc]
  rfl

theorem Spells.space (h : Spells xs tokens) (hc : isSpace c = true) : Spells (c :: xs) tokens := by
  have hstep (before : List Token) :
      Lexer.step ⟨.between, before⟩ c = some ⟨.between, before⟩ := by
    simp [Lexer.step, Lexer.between, hc]
  intro before rest hrest
  rw [List.cons_append, Lexer.run_cons (hstep before), h _ _ hrest]

theorem Spells.newLine (h : Spells xs tokens) (level : Nat) :
    Spells (Json.newLine level ++ xs) tokens := by
  have hblanks (n : Nat) : Spells (List.replicate n ' ' ++ xs) tokens := by
    induction n with
    | zero => exact h
    | succ n ih => exact ih.space rfl
  exact (hblanks _).space rfl

/-! ## Words and numbers -/

theorem between_of_isWordPart {before : List Token} (hc : isWordPart c = true) :
    Lexer.between before c = some ⟨.word [c], before⟩ := by
  have hspace : isSpace c = false := by
    rw [← Bool.not_eq_true]
    intro h
    simp only [isSpace, Bool.or_eq_true, beq_iff_eq] at h
    rcases h with ((rfl | rfl) | rfl) | rfl <;> exact absurd hc (by decide)
  have hquote : c ≠ '"' := by
    rintro rfl
    exact absurd hc (by decide)
  simp [Lexer.between, hspace, hquote, hc]

theorem run_word {chars : List Char} {before : List Token} (hword : ∀ c ∈ xs, isWordPart c = true) :
    Lexer.run ⟨.word chars, before⟩ (xs ++ ys) =
      Lexer.run ⟨.word (xs.reverse ++ chars), before⟩ ys := by
  induction xs generalizing chars with
  | nil => rfl
  | cons c xs ih =>
    have hstep : Lexer.step ⟨.word chars, before⟩ c = some ⟨.word (c :: chars), before⟩ := by
      simp [Lexer.step, hword c (by simp)]
    rw [List.cons_append, Lexer.run_cons hstep, ih fun d hd => hword d (by simp [hd])]
    simp

theorem spells_word (hword : ∀ c ∈ word, isWordPart c = true) (hne : word ≠ [])
    (hvalue : ofWord? word = some value) : Spells word [.scalar value] := by
  intro before rest hrest
  obtain ⟨c, cs, rfl⟩ := List.exists_cons_of_ne_nil hne
  have hc := hword c (by simp)
  have hstep : Lexer.step ⟨.between, before⟩ c = some ⟨.word [c], before⟩ :=
    between_of_isWordPart hc
  rw [List.cons_append, Lexer.run_cons hstep, run_word fun d hd => hword d (by simp [hd])]
  have hreverse : (cs.reverse ++ [c]).reverse = c :: cs := by simp
  cases rest with
  | nil =>
    simp only [Lexer.run, List.foldlM_nil, pure, Option.bind_some, Lexer.finish, hreverse, hvalue]
    rfl
  | cons d rest =>
    have hd : isWordPart d = false := hrest d rfl
    have hend : Lexer.step ⟨.word (cs.reverse ++ [c]), before⟩ d =
        Lexer.step ⟨.between, .scalar value :: before⟩ d := by
      simp only [Lexer.step, hd, Bool.false_eq_true, if_false, hreverse, hvalue, Option.bind_some]
    rw [Lexer.run, List.foldlM_cons, hend]
    rfl

/-! ## Strings -/

/-- A string literal of which the given characters, latest first, have been read. -/
def Quoted.ofChars (chars : List Char) : Quoted := ⟨chars, none, false⟩

theorem hexValue?_digitChar {d : Nat} (h : d < 16) : hexValue? (digitChar d) = some d := by
  have hall : ∀ e ∈ List.range 16, hexValue? (digitChar e) = some e := by decide
  exact hall d (List.mem_range.mpr h)

theorem run_digit {q : Quoted} {before : List Token} {digits value d : Nat} (h : d < 16) :
    Lexer.run ⟨.unit q (digits + 2) value, before⟩ (digitChar d :: ys) =
      Lexer.run ⟨.unit q (digits + 1) (16 * value + d), before⟩ ys := by
  refine Lexer.run_cons ?_
  simp [Lexer.step, hexValue?_digitChar h]

theorem run_lastDigit {q : Quoted} {before : List Token} {value d : Nat} (h : d < 16) :
    Lexer.run ⟨.unit q 1 value, before⟩ (digitChar d :: ys) =
      Lexer.run ⟨.quoted (q.pushUnit (16 * value + d)), before⟩ ys := by
  refine Lexer.run_cons ?_
  simp [Lexer.step, hexValue?_digitChar h]

/-- Four hexadecimal digits write one code unit. -/
theorem run_hexDigits {q : Quoted} {before : List Token} {unit : Nat} (h : unit < 65536) :
    Lexer.run ⟨.unit q 4 0, before⟩ (hexDigits 4 unit ++ ys) =
      Lexer.run ⟨.quoted (q.pushUnit unit), before⟩ ys := by
  have hlt (d : Nat) : d % 16 < 16 := Nat.mod_lt d (by decide)
  have hunit : 16 * (16 * (16 * (16 * 0 + unit / 16 / 16 / 16 % 16) + unit / 16 / 16 % 16) +
      unit / 16 % 16) + unit % 16 = unit := by
    omega
  simp only [hexDigits, List.nil_append, List.cons_append]
  rw [run_digit (hlt _), run_digit (hlt _), run_digit (hlt _), run_lastDigit (hlt _), hunit]

theorem pushUnit_ofChars {chars : List Char} (h : c.toNat < 0xD800) :
    (Quoted.ofChars chars).pushUnit c.toNat = .ofChars (c :: chars) := by
  have hhigh : isHighSurrogate c.toNat = false := by
    simp [isHighSurrogate]
    omega
  have hlow : isLowSurrogate c.toNat = false := by
    simp [isLowSurrogate]
    omega
  simp [Quoted.ofChars, Quoted.pushUnit, hhigh, hlow]

/-- A character is read as it has been written, escaped or not. -/
theorem run_writeChar {chars : List Char} {before : List Token} :
    Lexer.run ⟨.quoted (.ofChars chars), before⟩ (writeChar c ++ ys) =
      Lexer.run ⟨.quoted (.ofChars (c :: chars)), before⟩ ys := by
  have hescape {e : Char} (he : escaped? e = some c) (hu : e ≠ 'u') :
      Lexer.run ⟨.quoted (.ofChars chars), before⟩ (['\\', e] ++ ys) =
        Lexer.run ⟨.quoted (.ofChars (c :: chars)), before⟩ ys := by
    have hstep : Lexer.step ⟨.escape (.ofChars chars), before⟩ e =
        some ⟨.quoted (.ofChars (c :: chars)), before⟩ := by
      simp [Lexer.step, hu, he, Quoted.ofChars, Quoted.push]
    exact (Lexer.run_cons rfl).trans (Lexer.run_cons hstep)
  unfold writeChar
  -- the seven characters with an escape of their own
  iterate 7
    split
    · next hc => exact hescape (by rw [hc]; rfl) (by decide)
  split
  · next hcontrol =>
    have hopen : Lexer.run ⟨.quoted (.ofChars chars), before⟩
        ('\\' :: 'u' :: hexDigits 4 c.toNat ++ ys) =
          Lexer.run ⟨.unit (.ofChars chars) 4 0, before⟩ (hexDigits 4 c.toNat ++ ys) :=
      (Lexer.run_cons rfl).trans (Lexer.run_cons rfl)
    rw [hopen, run_hexDigits (by omega), pushUnit_ofChars (by omega)]
  · next hquote hbackslash _ _ _ _ _ hcontrol =>
    refine Lexer.run_cons ?_
    simp [Lexer.step, hquote, hbackslash, hcontrol, Quoted.ofChars, Quoted.push]

theorem spells_writeText (s : String) : Spells (writeText (some s)) [.string (some s)] := by
  have hchars (cs chars : List Char) (before : List Token) (rest : List Char) :
      Lexer.run ⟨.quoted (.ofChars chars), before⟩ (cs.flatMap writeChar ++ rest) =
        Lexer.run ⟨.quoted (.ofChars (cs.reverse ++ chars)), before⟩ rest := by
    induction cs generalizing chars with
    | nil => rfl
    | cons c cs ih =>
      have hreverse : (c :: cs).reverse ++ chars = cs.reverse ++ c :: chars := by simp
      rw [hreverse, List.flatMap_cons, List.append_assoc, run_writeChar, ih]
  have hwrite : writeText (some s) = '"' :: (s.toList.flatMap writeChar ++ ['"']) := rfl
  have hopen (before : List Token) :
      Lexer.step ⟨.between, before⟩ '"' = some ⟨.quoted (.ofChars []), before⟩ := rfl
  have hclose (chars : List Char) (before : List Token) :
      Lexer.step ⟨.quoted (.ofChars chars), before⟩ '"' =
        some ⟨.between, .string (Quoted.ofChars chars).text :: before⟩ := rfl
  have htext : (Quoted.ofChars (s.toList.reverse ++ [])).text = some s := by
    simp [Quoted.ofChars, Quoted.text]
  intro before rest hrest
  rw [hwrite, List.cons_append, List.append_assoc]
  rw [Lexer.run_cons (hopen _), hchars, List.singleton_append, Lexer.run_cons (hclose _ _), htext]
  rfl

/-! ## Values -/

/-- A value whose strings are texts and whose numbers are natural ones. -/
inductive Legible : Json → Prop
  | null : Legible .null
  | bool (value : Bool) : Legible (.bool value)
  | nat (n : Nat) : Legible (.nat n)
  | text (s : String) : Legible (.text s)
  | array {items : List Json} (hitems : ∀ item ∈ items, Legible item) : Legible (.array items)
  | record {members : List (String × Json)} (hmembers : ∀ m ∈ members, Legible m.2) :
    Legible (.record members)

mutual

/-- The tokens of a value. -/
def tokensOf : Json → List Token
  | .string text => [.string text]
  | .array [] => [.openArray, .closeArray]
  | .array (item :: rest) => .openArray :: (tokensOf item ++ tokensOfItems rest)
  | .object [] => [.openObject, .closeObject]
  | .object ((key, value) :: rest) =>
    .openObject :: .string key :: .colon :: (tokensOf value ++ tokensOfMembers rest)
  | value => [.scalar value]

/-- The tokens of the items after the first, and of the end of the array. -/
def tokensOfItems : List Json → List Token
  | [] => [.closeArray]
  | item :: rest => .comma :: (tokensOf item ++ tokensOfItems rest)

/-- The tokens of the members after the first, and of the end of the object. -/
def tokensOfMembers : List (LiteralText × Json) → List Token
  | [] => [.closeObject]
  | (key, value) :: rest =>
    .comma :: .string key :: .colon :: (tokensOf value ++ tokensOfMembers rest)

end

theorem spells_null : Spells "null".toList [.scalar .null] :=
  spells_word (List.all_eq_true.mp rfl) (by decide) rfl

theorem spells_true : Spells "true".toList [.scalar (.bool true)] :=
  spells_word (List.all_eq_true.mp rfl) (by decide) rfl

theorem spells_false : Spells "false".toList [.scalar (.bool false)] :=
  spells_word (List.all_eq_true.mp rfl) (by decide) rfl

theorem spells_decimal (n : Nat) : Spells (Numeral.ofNat n).write [.scalar (.nat n)] := by
  have hdigit (c : Char) (hc : c ∈ decimal n) : '0' ≤ c ∧ c ≤ '9' := by
    have h := Numeral.isDigit_of_mem_decimal hc
    rw [Numeral.isDigit, digitValue?] at h
    split at h
    · assumption
    · cases h
  have hvalue : ofWord? (Numeral.ofNat n).write = some (.nat n) := by
    have hword {word : List Char} {c : Char} (hc : c ∈ word) (hlt : '9' < c) :
        (Numeral.ofNat n).write ≠ word := by
      rintro rfl
      rw [Numeral.write_ofNat] at hc
      exact absurd (hdigit c hc).2 (Char.not_le.mpr hlt)
    rw [ofWord?, if_neg (hword (c := 'n') (by decide) (by decide)),
      if_neg (hword (c := 't') (by decide) (by decide)),
      if_neg (hword (c := 'f') (by decide) (by decide)), Numeral.read_write_ofNat]
    rfl
  refine spells_word (fun c hc => ?_) ?_ hvalue
  · rw [Numeral.write_ofNat] at hc
    simp [isWordPart, hdigit c hc]
  · rw [Numeral.write_ofNat]
    exact decimal_ne_nil n

theorem spells_writeItems {items : List Json}
    (h : ∀ item ∈ items, Spells (write item) (tokensOf item)) :
    Spells (writeItems items) (tokensOfItems items) ∧ Stops (writeItems items) := by
  induction items with
  | nil => exact ⟨spells_nil.punctuation rfl, stops_cons rfl⟩
  | cons item rest ih =>
    obtain ⟨hrest, hstops⟩ := ih fun other hother => h other (List.mem_cons_of_mem _ hother)
    exact ⟨((h item List.mem_cons_self).append hrest hstops).punctuation rfl, stops_cons rfl⟩

theorem spells_writeMembers {members : List (String × Json)}
    (h : ∀ m ∈ members, Spells (write m.2) (tokensOf m.2)) :
    Spells (writeMembers (members.map fun (key, value) => (some key, value)))
        (tokensOfMembers (members.map fun (key, value) => (some key, value))) ∧
      Stops (writeMembers (members.map fun (key, value) => (some key, value))) := by
  induction members with
  | nil => exact ⟨spells_nil.punctuation rfl, stops_cons rfl⟩
  | cons member rest ih =>
    obtain ⟨hrest, hstops⟩ := ih fun other hother => h other (List.mem_cons_of_mem _ hother)
    have hvalue := ((h member List.mem_cons_self).append hrest hstops).punctuation (c := ':') rfl
    exact ⟨((spells_writeText member.1).append hvalue (stops_cons rfl)).punctuation rfl,
      stops_cons rfl⟩

/-- The compact form of a value spells its tokens. -/
theorem spells_write (h : Legible value) : Spells (write value) (tokensOf value) := by
  induction h with
  | null => exact spells_null
  | bool value =>
    cases value with
    | true => exact spells_true
    | false => exact spells_false
  | nat n => exact spells_decimal n
  | text s => exact spells_writeText s
  | @array items _ ih =>
    cases items with
    | nil => exact (spells_nil.punctuation rfl).punctuation rfl
    | cons item rest =>
      obtain ⟨hrest, hstops⟩ :=
        spells_writeItems fun other hother => ih other (List.mem_cons_of_mem _ hother)
      exact ((ih item List.mem_cons_self).append hrest hstops).punctuation rfl
  | @record members _ ih =>
    cases members with
    | nil => exact (spells_nil.punctuation rfl).punctuation rfl
    | cons member rest =>
      obtain ⟨hrest, hstops⟩ :=
        spells_writeMembers fun other hother => ih other (List.mem_cons_of_mem _ hother)
      have hvalue := ((ih member List.mem_cons_self).append hrest hstops).punctuation (c := ':') rfl
      exact ((spells_writeText member.1).append hvalue (stops_cons rfl)).punctuation rfl

/-! ## Several lines -/

theorem spells_writePrettyItems {items : List Json} (level : Nat)
    (h : ∀ item ∈ items, Spells (writePrettyAt (level + 1) item) (tokensOf item)) :
    Spells (writePrettyItems level items) (tokensOfItems items) ∧
      Stops (writePrettyItems level items) := by
  induction items with
  | nil => exact ⟨(spells_nil.punctuation rfl).newLine level, stops_cons rfl⟩
  | cons item rest ih =>
    obtain ⟨hrest, hstops⟩ := ih fun other hother => h other (List.mem_cons_of_mem _ hother)
    refine ⟨?_, stops_cons rfl⟩
    have hitem := (h item List.mem_cons_self).append hrest hstops
    have hline := (hitem.newLine (level + 1)).punctuation (c := ',') rfl
    rwa [← List.append_assoc] at hline

/-- A member on a line of its own, and what comes after it. -/
theorem Spells.prettyMember {level : Nat} {member : String × Json}
    (hvalue : Spells (writePrettyAt (level + 1) member.2) (tokensOf member.2))
    (hrest : Spells xs tokens) (hstops : Stops xs) :
    Spells (Json.newLine (level + 1) ++ writeText (some member.1) ++ [':', ' '] ++
        writePrettyAt (level + 1) member.2 ++ xs)
      (.string (some member.1) :: .colon :: (tokensOf member.2 ++ tokens)) := by
  have hspaced := (hvalue.append hrest hstops).space (c := ' ') rfl
  have hcolon := hspaced.punctuation (c := ':') rfl
  have hline := ((spells_writeText member.1).append hcolon (stops_cons rfl)).newLine (level + 1)
  simpa using hline

theorem spells_writePrettyMembers {members : List (String × Json)} (level : Nat)
    (h : ∀ m ∈ members, Spells (writePrettyAt (level + 1) m.2) (tokensOf m.2)) :
    Spells (writePrettyMembers level (members.map fun (key, value) => (some key, value)))
        (tokensOfMembers (members.map fun (key, value) => (some key, value))) ∧
      Stops (writePrettyMembers level (members.map fun (key, value) => (some key, value))) := by
  induction members with
  | nil => exact ⟨(spells_nil.punctuation rfl).newLine level, stops_cons rfl⟩
  | cons member rest ih =>
    obtain ⟨hrest, hstops⟩ := ih fun other hother => h other (List.mem_cons_of_mem _ hother)
    exact ⟨((h member List.mem_cons_self).prettyMember hrest hstops).punctuation rfl,
      stops_cons rfl⟩

theorem spells_writePrettyAt (h : Legible value) (level : Nat) :
    Spells (writePrettyAt level value) (tokensOf value) := by
  induction h generalizing level with
  | null => exact spells_null
  | bool value =>
    cases value with
    | true => exact spells_true
    | false => exact spells_false
  | nat n => exact spells_decimal n
  | text s => exact spells_writeText s
  | @array items _ ih =>
    cases items with
    | nil => exact (spells_nil.punctuation rfl).punctuation rfl
    | cons item rest =>
      obtain ⟨hrest, hstops⟩ := spells_writePrettyItems level fun other hother =>
        ih other (List.mem_cons_of_mem _ hother) (level + 1)
      have hitem := (ih item List.mem_cons_self (level + 1)).append hrest hstops
      have hline := (hitem.newLine (level + 1)).punctuation (c := '[') rfl
      rwa [← List.append_assoc] at hline
  | @record members _ ih =>
    cases members with
    | nil => exact (spells_nil.punctuation rfl).punctuation rfl
    | cons member rest =>
      obtain ⟨hrest, hstops⟩ := spells_writePrettyMembers level fun other hother =>
        ih other (List.mem_cons_of_mem _ hother) (level + 1)
      have hvalue := ih member List.mem_cons_self (level + 1)
      exact (hvalue.prettyMember hrest hstops).punctuation rfl

/-- The indented form of a value spells the same tokens. -/
theorem spells_writePretty (h : Legible value) : Spells (writePretty value) (tokensOf value) :=
  spells_writePrettyAt h 0

end Ripple.Json
