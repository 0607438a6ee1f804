import Ripple.Path
import Ripple.Proofs.Files.Walk
import Ripple.Proofs.Text.Split
import Ripple.Proofs.Text.Utf8
import Mathlib.Data.List.Chain

/-!
# Paths as text and as pieces

The pieces of a path are those of its bytes, and UTF-8 keeps the slashes where they are. So the
pieces that lead elsewhere are the steps among the components of the text (`steps_encode`), and each
directory in the lineage of a path has all steps of the one below it but the last
(`isChain_lineage`).
-/

namespace Ripple

open Text

namespace FileTree

/-! ## The pieces of bytes -/

/-- The pieces between the slashes of a path. -/
def barePieces (path : Bytes) : List Piece := (path.splitOn slash).filterMap pieceOf?

/-- The pieces of a path that lead elsewhere. -/
def steps (path : Bytes) : List Piece := (barePieces path).filter (·.isStep)

theorem piecesOf_eq (path : Bytes) :
    piecesOf path = barePieces path ++
      if path.getLast? = some slash ∧ (barePieces path).getLast?.any (·.isName) then [.close]
      else [] := by
  rw [piecesOf, splitWhere_eq_splitOn]
  rfl

/-- A slash at the end leads nowhere. -/
theorem filter_piecesOf (path : Bytes) : (piecesOf path).filter (·.isStep) = steps path := by
  rw [piecesOf_eq, List.filter_append, steps]
  split <;> simp [Piece.isStep]

/-- A path that does not end in a slash has no piece to say so. -/
theorem piecesOf_of_getLast? {path : Bytes} (h : path.getLast? ≠ some slash) :
    piecesOf path = barePieces path := by
  rw [piecesOf_eq, if_neg (fun hc => h hc.1), List.append_nil]

theorem barePieces_append_slash (xs ys : Bytes) :
    barePieces (xs ++ slash :: ys) = barePieces xs ++ barePieces ys := by
  rw [barePieces, List.splitOn_append_cons_self, List.filterMap_append]
  rfl

@[simp] theorem barePieces_nil : barePieces [] = [] := rfl

/-- Slashes at the start do not matter for the pieces after them. -/
theorem barePieces_replicate_slash (n : Nat) (path : Bytes) :
    barePieces (List.replicate n slash ++ path) = barePieces path := by
  induction n with
  | zero => rfl
  | succ n ih => exact (barePieces_append_slash [] _).trans ih

/-- Bytes without a slash are a name, unless they are empty or full stops. -/
theorem barePieces_name {name : FileName} (hslash : slash ∉ name) (hempty : name ≠ [])
    (hdot : name ≠ [dot]) (hdots : name ≠ [dot, dot]) : barePieces name = [.name name] := by
  rw [barePieces, List.splitOn_eq_singleton hslash]
  simp [pieceOf?, hempty, hdot, hdots]

/-- Slashes at the end do not matter for the pieces before them. -/
theorem piecesOf_dropSlashes (path : Bytes) : piecesOf (dropSlashes path) = barePieces path := by
  induction path using List.reverseRecOn with
  | nil => rfl
  | append_singleton path byte ih =>
    have hdrop : dropSlashes (path ++ [byte]) =
        if byte = slash then dropSlashes path else path ++ [byte] := by
      unfold dropSlashes
      rw [List.reverse_append, List.reverse_singleton, List.singleton_append, List.dropWhile_cons]
      by_cases hbyte : byte = slash <;> simp [hbyte]
    rw [hdrop]
    split
    · next hbyte => rw [ih, hbyte, barePieces_append_slash, barePieces_nil, List.append_nil]
    · next hbyte => exact piecesOf_of_getLast? (by simpa using hbyte)

/-! ## The steps of a text -/

theorem encodeChar_slash : encodeChar '/' = [slash] := by decide

/-- The piece that a step of a text is. -/
def stepOf (piece : List Char) : Piece :=
  if piece = ['.', '.'] then .up else .name (encode piece)

theorem pieceOf?_encode (piece : List Char) :
    (pieceOf? (encode piece)).filter (·.isStep) =
      if Path.isStep piece then some (stepOf piece) else none := by
  have hempty : encode piece = [] ↔ piece = [] :=
    ⟨fun h => encode_injective (h.trans encode_nil.symm), fun h => by rw [h, encode_nil]⟩
  have hdot : encode piece = [dot] ↔ piece = ['.'] :=
    ⟨fun h => encode_injective (h.trans (by decide)), fun h => by rw [h]; decide⟩
  have hdots : encode piece = [dot, dot] ↔ piece = ['.', '.'] :=
    ⟨fun h => encode_injective (h.trans (by decide)), fun h => by rw [h]; decide⟩
  unfold pieceOf? Path.isStep stepOf
  simp only [hempty, hdot, hdots]
  by_cases h1 : piece = []
  · simp [h1]
  by_cases h2 : piece = ['.']
  · simp [h2, Piece.isStep]
  by_cases h3 : piece = ['.', '.']
  · simp [h3, Piece.isStep]
  · simp [h1, h2, h3, Piece.isStep]

/-- **The pieces of a text that lead elsewhere are its steps.** -/
theorem steps_encode (path : List Char) :
    steps (encode path) = ((path.splitOn '/').filter Path.isStep).map stepOf := by
  rw [steps, barePieces, encode_splitOn encodeChar_slash (by decide), List.filterMap_map,
    List.filter_filterMap, ← List.filterMap_eq_map, List.filterMap_filter]
  exact List.filterMap_congr fun piece _ => pieceOf?_encode piece

/-- The steps among the components are the steps of the text; a component `.` is none. -/
theorem filter_components (path : List Char) :
    (Path.components path).filter Path.isStep = (path.splitOn '/').filter Path.isStep := by
  unfold Path.components
  rw [splitWhere_eq_splitOn]
  split
  · next rest hsplit =>
    have hdot : Path.isStep ['.'] = false := by decide
    rw [hsplit, List.filter_cons_of_neg (by simp [hdot]), List.filter_cons_of_neg (by simp [hdot]),
      List.filter_filter]
    simp only [Bool.and_self]
  · rw [List.filter_filter]
    simp only [Bool.and_self]

/-! ## Lineages -/

/-- The components of an absolute or a relative path: no slashes, not empty, and every one is a step
except that a relative path may start with a `.`. -/
structure Components (absolute : Bool) (components : List (List Char)) : Prop where
  piece {c : List Char} (h : c ∈ components) : '/' ∉ c ∧ c ≠ []
  step {before after : List (List Char)} {c : List Char} (h : components = before ++ c :: after)
    (hfirst : absolute = true ∨ before ≠ []) : Path.isStep c = true

theorem Components.dropLast {absolute : Bool} {before : List (List Char)} {c : List Char}
    (h : Components absolute (before ++ [c])) : Components absolute before where
  piece hc := h.piece (List.mem_append_left _ hc)
  step heq hfirst := h.step (by rw [heq, List.append_assoc, List.cons_append]) hfirst

theorem isAbsolute_eq_true {path : List Char} (h : Path.isAbsolute path = true) :
    ∃ rest, path = '/' :: rest := by
  cases path with
  | nil => simp [Path.isAbsolute] at h
  | cons c rest => exact ⟨rest, by simpa [Path.isAbsolute] using h⟩

theorem components_cases (path : List Char) :
    (∃ rest, path.splitOn '/' = ['.'] :: rest ∧
      Path.components path = ['.'] :: rest.filter Path.isStep) ∨
    Path.components path = (path.splitOn '/').filter Path.isStep := by
  unfold Path.components
  rw [splitWhere_eq_splitOn]
  split
  · next rest hsplit => exact .inl ⟨rest, hsplit, rfl⟩
  · exact .inr rfl

theorem components_sublist (path : List Char) :
    (Path.components path).Sublist (path.splitOn '/') := by
  obtain ⟨rest, hsplit, hcomponents⟩ | hcomponents := components_cases path
  · rw [hsplit, hcomponents]
    exact List.filter_sublist.cons_cons _
  · rw [hcomponents]
    exact List.filter_sublist

/-- What a path is cut into are components. -/
theorem components_components (path : List Char) :
    Components (Path.isAbsolute path) (Path.components path) where
  piece {c} h := by
    refine ⟨not_mem_of_mem_splitOn ((components_sublist path).subset h), ?_⟩
    rintro rfl
    obtain ⟨rest, -, hcomponents⟩ | hcomponents := components_cases path
    all_goals simp [hcomponents, Path.isStep] at h
  step {before after c} h hfirst := by
    have hstep (pieces : List (List Char)) (hmem : c ∈ pieces.filter Path.isStep) :
        Path.isStep c = true := (List.mem_filter.mp hmem).2
    obtain ⟨rest, hsplit, hcomponents⟩ | hcomponents := components_cases path
    · rw [hcomponents] at h
      cases before with
      | nil =>
        -- the `.` in front is that of a relative path
        obtain ⟨path, rfl⟩ := isAbsolute_eq_true (hfirst.resolve_right (by simp))
        simp [List.splitOn_cons_eq_if_modifyHead] at hsplit
      | cons first before =>
        have hrest := (List.cons.inj h).2
        exact hstep rest (by rw [hrest]; simp)
    · exact hstep (path.splitOn '/') (by rw [← hcomponents, h]; simp)

/-- The text is a spelling of a path with the given components. -/
structure Spells (path : List Char) (absolute : Bool) (components : List (List Char)) : Prop where
  start : Path.isAbsolute path = absolute
  sublist : (Path.ofComponents absolute components).Sublist path
  steps : steps (encode path) = (components.filter Path.isStep).map stepOf

theorem spells_components (path : List Char) :
    Spells path (Path.isAbsolute path) (Path.components path) where
  start := rfl
  sublist := by
    have hjoin : (['/'].intercalate (Path.components path)).Sublist path := by
      have h := sublist_intercalate ['/'] (components_sublist path)
      rwa [List.intercalate_splitOn] at h
    cases habsolute : Path.isAbsolute path with
    | false => exact hjoin
    | true =>
      obtain ⟨rest, rfl⟩ := isAbsolute_eq_true habsolute
      have hcomponents : Path.components ('/' :: rest) = (rest.splitOn '/').filter Path.isStep := by
        obtain ⟨after, hsplit, -⟩ | hcomponents := components_cases ('/' :: rest)
        · simp [List.splitOn_cons_eq_if_modifyHead] at hsplit
        · simpa [List.splitOn_cons_eq_if_modifyHead, Path.isStep] using hcomponents
      have hrest := sublist_intercalate ['/']
        (List.filter_sublist (l := rest.splitOn '/') (p := Path.isStep))
      rw [List.intercalate_splitOn] at hrest
      rw [hcomponents]
      exact hrest.cons_cons '/'
  steps := by rw [steps_encode, filter_components]

theorem spells_ofComponents {absolute : Bool} {components : List (List Char)}
    (h : Components absolute components) (hfirst : absolute = true ∨ components ≠ []) :
    Spells (Path.ofComponents absolute components) absolute components where
  start := by
    cases absolute with
    | true => rfl
    | false =>
      cases components with
      | nil => simp at hfirst
      | cons c rest =>
        obtain ⟨hslash, hempty⟩ := h.piece List.mem_cons_self
        cases c with
        | nil => exact absurd rfl hempty
        | cons x c =>
          have hx : x ≠ '/' := fun hx => hslash (by simp [hx])
          cases rest <;> simp [Path.ofComponents, Path.isAbsolute, hx]
  sublist := .refl _
  steps := by
    rw [steps_encode]
    have hjoin (hne : components ≠ []) :
        (['/'].intercalate components).splitOn '/' = components :=
      List.splitOn_intercalate '/' (fun c hc => (h.piece hc).1) hne
    have hempty : Path.isStep [] = false := by decide
    cases components with
    | nil =>
      obtain rfl := hfirst.resolve_right (by simp)
      decide
    | cons c rest =>
      cases absolute with
      | false => rw [Path.ofComponents, if_neg (by simp), List.nil_append, hjoin (by simp)]
      | true =>
        rw [Path.ofComponents, if_pos rfl, List.singleton_append,
          List.splitOn_cons_eq_if_modifyHead, if_pos (by simp), hjoin (by simp),
          List.filter_cons_of_neg (by simp [hempty])]

theorem isAbsolute_encode (path : List Char) : isAbsolute (encode path) = Path.isAbsolute path := by
  cases path with
  | nil => rfl
  | cons c rest =>
    by_cases hc : c = '/'
    · rw [hc, encode_cons, encodeChar_slash]
      rfl
    · have hhead : (encodeChar c).head? ≠ some slash := by
        intro hhead
        have hnat := toNat_eq_of_mem_encodeChar (List.mem_of_head? hhead) (by decide)
        exact hc (Char.toNat_inj.mp hnat)
      obtain ⟨byte, after, hbytes⟩ := List.exists_cons_of_ne_nil (encodeChar_ne_nil c)
      rw [hbytes] at hhead
      simp [encode_cons, isAbsolute, Path.isAbsolute, hbytes, hc]
      simpa using hhead

/-- The second path is spelled like the directory above the last step of the first. -/
structure Above (path upper : Bytes) : Prop where
  start : isAbsolute upper = isAbsolute path
  sublist : upper.Sublist path
  ne_nil : upper ≠ []
  step : ∃ last, steps path = steps upper ++ [last]

theorem Spells.above {path : List Char} {absolute : Bool} {before : List (List Char)}
    {c : List Char} (h : Spells path absolute (before ++ [c]))
    (hcomponents : Components absolute (before ++ [c]))
    (hfirst : absolute = true ∨ before ≠ []) :
    Above (encode path) (encode (Path.ofComponents absolute before)) := by
  have hupper := spells_ofComponents hcomponents.dropLast hfirst
  refine ⟨?_, ?_, ?_, stepOf c, ?_⟩
  · rw [isAbsolute_encode, isAbsolute_encode, hupper.start, h.start]
  · have hjoin := sublist_intercalate ['/'] (List.sublist_append_left before [c])
    exact encode_sublist (((List.Sublist.refl _).append hjoin).trans h.sublist)
  · refine encode_ne_nil fun hempty => ?_
    obtain ⟨hroot, hjoin⟩ := List.append_eq_nil_iff.mp hempty
    cases before with
    | nil => simp [hfirst.resolve_right (by simp)] at hroot
    | cons d rest =>
      have hd := (hcomponents.piece (c := d) (by simp)).2
      cases rest <;> simp [hd] at hjoin
  · rw [h.steps, hupper.steps, List.filter_append, List.map_append,
      List.filter_cons_of_pos (hcomponents.step rfl hfirst)]
    rfl

/-- The directories above a spelling of a path come in their order. -/
theorem isChain_above {path : List Char} {absolute : Bool} {reversed : List (List Char)}
    (h : Spells path absolute reversed.reverse)
    (hcomponents : Components absolute reversed.reverse) :
    List.IsChain Above ((path :: Path.above absolute reversed).map encode) := by
  -- `Path.above` takes the components off the end, where the list `reversed` begins
  induction reversed generalizing path with
  | nil => exact .singleton _
  | cons c rest ih =>
    rw [List.reverse_cons] at h hcomponents
    rw [Path.above]
    split
    · exact .singleton _
    · next hmore =>
      have hfirst : absolute = true ∨ rest.reverse ≠ [] := by
        by_cases habsolute : absolute = true
        · exact .inl habsolute
        · exact .inr fun hrest => hmore ⟨List.reverse_eq_nil_iff.mp hrest, habsolute⟩
      rw [List.map_cons, List.map_cons, List.isChain_cons_cons]
      exact ⟨h.above hcomponents hfirst,
        ih (spells_ofComponents hcomponents.dropLast hfirst) hcomponents.dropLast⟩

/-- **Each path in a lineage is spelled like the directory above the one before it.** -/
theorem isChain_lineage (path : List Char) :
    List.IsChain Above ((Path.lineage path).map encode) := by
  have hspells := spells_components path
  have hcomponents := components_components path
  rw [← List.reverse_reverse (Path.components path)] at hspells hcomponents
  exact isChain_above hspells hcomponents

end FileTree

end Ripple
