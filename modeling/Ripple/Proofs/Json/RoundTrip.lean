import Ripple.Json.Reader
import Ripple.Proofs.Json.Spelling

/-!
# Written values are read back

The reader takes the tokens of a value as that value, in whatever arrays and objects it stands
(`foldlM_tokensOf`). With the tokens of the written forms this makes both of them readable
(`read?_write`, `read?_writePretty`).
-/

namespace Ripple.Json

namespace Reader

variable {value : Json} {stack : List Frame} {tail : List Token}

/-- The tokens of a value start as the value itself does, also where an array might end. -/
theorem foldlM_firstItem (value : Json) :
    (tokensOf value ++ tail).foldlM step (.firstItem stack) =
      (tokensOf value ++ tail).foldlM step (.value (.item [] :: stack)) := by
  cases value with
  | array items => cases items <;> rfl
  | object members => cases members <;> rfl
  | _ => rfl

/-- The value ends up where it is expected. -/
def Settles (value : Json) : Prop :=
  ∀ stack tail, (tokensOf value ++ tail).foldlM step (.value stack) =
    tail.foldlM step (.after stack value)

theorem foldlM_tokensOfItems {items before : List Json} {last : Json}
    (h : ∀ item ∈ items, Settles item) :
    (tokensOfItems items ++ tail).foldlM step (.after (.item before :: stack) last) =
      tail.foldlM step (.after stack (.array ((last :: before).reverse ++ items))) := by
  induction items generalizing before last with
  | nil => rw [List.append_nil]; rfl
  | cons item rest ih =>
    have hcomma : (tokensOfItems (item :: rest) ++ tail).foldlM step
        (.after (.item before :: stack) last) =
          (tokensOf item ++ (tokensOfItems rest ++ tail)).foldlM step
            (.value (.item (last :: before) :: stack)) := by
      rw [← List.append_assoc]
      rfl
    rw [hcomma, h item List.mem_cons_self,
      ih fun other hother => h other (List.mem_cons_of_mem _ hother)]
    simp

theorem foldlM_tokensOfMembers {members before : List (LiteralText × Json)} {key : LiteralText}
    {last : Json} (h : ∀ m ∈ members, Settles m.2) :
    (tokensOfMembers members ++ tail).foldlM step (.after (.member before key :: stack) last) =
      tail.foldlM step (.after stack (.object (((key, last) :: before).reverse ++ members))) := by
  induction members generalizing before key last with
  | nil => rw [List.append_nil]; rfl
  | cons member rest ih =>
    have hcomma : (tokensOfMembers (member :: rest) ++ tail).foldlM step
        (.after (.member before key :: stack) last) =
          (tokensOf member.2 ++ (tokensOfMembers rest ++ tail)).foldlM step
            (.value (.member ((key, last) :: before) member.1 :: stack)) := by
      rw [← List.append_assoc]
      rfl
    rw [hcomma, h member List.mem_cons_self,
      ih fun other hother => h other (List.mem_cons_of_mem _ hother)]
    simp

theorem foldlM_tokensOf (h : Legible value) : Settles value := by
  induction h with
  | null | bool | nat | text => exact fun _ _ => rfl
  | @array items _ ih =>
    intro stack tail
    cases items with
    | nil => rfl
    | cons item rest =>
      have hopen : (tokensOf (.array (item :: rest)) ++ tail).foldlM step (.value stack) =
          (tokensOf item ++ (tokensOfItems rest ++ tail)).foldlM step (.firstItem stack) := by
        rw [← List.append_assoc]
        rfl
      rw [hopen, foldlM_firstItem, ih item List.mem_cons_self,
        foldlM_tokensOfItems fun other hother => ih other (List.mem_cons_of_mem _ hother)]
      rfl
  | @record members _ ih =>
    intro stack tail
    cases members with
    | nil => rfl
    | cons member rest =>
      have hmembers : ∀ m ∈ rest.map fun m => ((some m.1 : LiteralText), m.2), Settles m.2 := by
        simp only [List.mem_map]
        rintro _ ⟨other, hother, rfl⟩
        exact ih other (List.mem_cons_of_mem _ hother)
      have hopen : (tokensOf (.record (member :: rest)) ++ tail).foldlM step (.value stack) =
          (tokensOf member.2 ++ (tokensOfMembers
            (rest.map fun m => (some m.1, m.2)) ++ tail)).foldlM step
              (.value (.member [] (some member.1) :: stack)) := by
        rw [← List.append_assoc]
        rfl
      rw [hopen, ih member List.mem_cons_self, foldlM_tokensOfMembers hmembers]
      rfl

end Reader

variable {value : Json} {text : List Char}

/-- A text that spells the tokens of a value is read as that value. -/
theorem read?_of_spells (h : Legible value) (htext : Spells text (tokensOf value)) :
    read? text = some value := by
  have hread := Reader.foldlM_tokensOf h [] []
  rw [List.append_nil] at hread
  rw [read?, htext.tokens?, Option.bind_some, hread]
  rfl

/-- **What is written without blanks is read back.** -/
theorem read?_write (h : Legible value) : read? (write value) = some value :=
  read?_of_spells h (spells_write h)

/-- **What is written on several lines is read back.** -/
theorem read?_writePretty (h : Legible value) : read? (writePretty value) = some value :=
  read?_of_spells h (spells_writePretty h)

end Ripple.Json
