import EchoState.Matrix.Text
import EchoState.Proofs.Scalar.Legible
import EchoState.Scalar.Float

/-!
# Reading a matrix text

The text of a matrix can be read: its lines are the rows, and between the commas of a line stand the
texts of the values, for none of them is empty or has a delimiter in it. Two matrices with one text
therefore have the same shape and the same values as soon as one of them has a row; without rows the
text is empty and says nothing of the columns.
-/

namespace EchoState

/-! ## Lines and lists -/

/-- Lines that end with a mark are found between the marks. -/
theorem splitOn_lines {mark : Char} {lines : List (List Char)}
    (free : ∀ line ∈ lines, mark ∉ line) :
    (lines.flatMap (· ++ [mark])).splitOn mark = lines ++ [[]] := by
  induction lines with
  | nil => rfl
  | cons line rest ih =>
      rw [List.forall_mem_cons] at free
      rw [List.flatMap_cons, List.append_assoc, List.singleton_append,
        List.splitOn_append_cons_self_of_not_mem free.1, ih free.2, List.cons_append]

theorem of_mem_intercalate {c : Char} {separator : List Char} {texts : List (List Char)}
    (listed : c ∈ separator.intercalate texts) : c ∈ separator ∨ ∃ text ∈ texts, c ∈ text := by
  induction texts with
  | nil =>
      rw [List.intercalate_nil] at listed
      cases listed
  | cons first rest ih =>
      cases rest with
      | nil =>
          rw [List.intercalate_singleton] at listed
          exact .inr ⟨first, List.mem_cons_self, listed⟩
      | cons next rest =>
          rw [List.intercalate_cons_cons, List.append_assoc, List.mem_append, List.mem_append]
            at listed
          rcases listed with inFirst | inSeparator | later
          · exact .inr ⟨first, List.mem_cons_self, inFirst⟩
          · exact .inl inSeparator
          · exact (ih later).imp_right fun ⟨text, listed, inText⟩ =>
              ⟨text, List.mem_cons_of_mem _ listed, inText⟩

theorem intercalate_comma_blank (first : List Char) (rest : List (List Char)) :
    [',', ' '].intercalate (first :: rest) = [','].intercalate (first :: rest.map (' ' :: ·)) := by
  induction rest generalizing first with
  | nil => rfl
  | cons next rest ih =>
      rw [List.map_cons, List.intercalate_cons_cons, List.intercalate_cons_cons,
        List.intercalate_cons_cons_left, ← ih, List.append_assoc, List.append_assoc]
      rfl

/-- What stands between the commas of a line, without the blanks behind them. -/
def readSeparated (line : List Char) : List (List Char) :=
  if line = [] then []
  else
    match line.splitOn ',' with
    | [] => []
    | first :: rest => first :: rest.map List.tail

theorem readSeparated_intercalate {texts : List (List Char)} (written : ∀ text ∈ texts, text ≠ [])
    (free : ∀ text ∈ texts, ',' ∉ text) : readSeparated ([',', ' '].intercalate texts) = texts := by
  cases texts with
  | nil => rfl
  | cons first rest =>
      rw [List.forall_mem_cons] at free
      have spaced : ∀ text ∈ first :: rest.map (' ' :: ·), ',' ∉ text := by
        rw [List.forall_mem_cons, List.forall_mem_map]
        exact ⟨free.1, fun text listed =>
          List.not_mem_cons_of_ne_of_not_mem (by decide) (free.2 text listed)⟩
      have parts := List.splitOn_intercalate ',' spaced (List.cons_ne_nil _ _)
      rw [intercalate_comma_blank]
      unfold readSeparated
      split
      · rename_i empty
        -- one text that is empty would read as none
        rw [empty, List.splitOn_nil] at parts
        exact absurd (List.cons.inj parts).1.symm (written first List.mem_cons_self)
      · rw [parts]
        dsimp only
        rw [List.map_map]
        exact congrArg _ (List.map_id rest)

/-! ## Rows -/

section Bracketed

variable {α : Type} [Legible α]

theorem toList_bracketed (places : Int) (values : List α) :
    (bracketed places values).toList =
      '[' :: ([',', ' '].intercalate
        (values.map fun x => (Legible.positional places x).toList) ++ [']']) := by
  unfold bracketed
  rw [String.toList_append, String.toList_append, String.toList_intercalate, List.map_map]
  rfl

variable [Scalar α] [LegibleScalar α]

theorem newline_notMem_bracketed (values : List α) :
    '\n' ∉ (bracketed (-1) values).toList := by
  rw [toList_bracketed, List.mem_cons, List.mem_append, List.mem_singleton]
  rintro (opening | inside | closing)
  · cases opening
  · rcases of_mem_intercalate inside with separator | ⟨text, listed, inText⟩
    · exact absurd separator (by decide)
    · obtain ⟨x, -, rfl⟩ := List.mem_map.mp listed
      exact LegibleScalar.delimiter_notMem x (by decide) inText
  · cases closing

/-- A row between brackets reads as the texts of its values. -/
theorem readSeparated_bracketed (values : List α) :
    (readSeparated (bracketed (-1) values).toList.tail.dropLast).map String.ofList =
      values.map (Legible.positional (-1)) := by
  have written : ∀ text ∈ values.map fun x => (Legible.positional (-1) x).toList, text ≠ [] := by
    rw [List.forall_mem_map]
    exact fun x _ empty => LegibleScalar.positional_ne_empty x (String.toList_eq_nil_iff.mp empty)
  have free : ∀ text ∈ values.map fun x => (Legible.positional (-1) x).toList, ',' ∉ text := by
    rw [List.forall_mem_map]
    exact fun x _ => LegibleScalar.delimiter_notMem x (by decide)
  rw [toList_bracketed, List.tail_cons, List.dropLast_concat,
    readSeparated_intercalate written free, List.map_map]
  exact List.map_congr_left fun x _ => String.ofList_toList

end Bracketed

/-- The texts of the values of a matrix text, row by row. -/
def readRows (text : String) : List (List String) :=
  (text.toList.splitOn '\n').dropLast.map fun line =>
    (readSeparated line.tail.dropLast).map String.ofList

namespace Matrix

variable {α : Type} [Scalar α]

/-- The shapes are equal, and so are the values, cell by cell. -/
structure Alike (m m' : Matrix α) : Prop where
  rows : m.rows = m'.rows
  cols : m.cols = m'.cols
  cells : ∀ i j, Scalar.Same (m.sheet.get i j) (m'.sheet.get (i.cast rows) (j.cast cols))

variable [Legible α] [LegibleScalar α]

/-- The text of a matrix reads as the texts of its values. -/
theorem readRows_text (m : Matrix α) :
    readRows m.text = (List.finRange m.rows).map fun i =>
      (m.sheet.row i).toList.map (Legible.positional (-1)) := by
  have lines : m.text.toList =
      ((List.finRange m.rows).map fun i => (bracketed (-1) (m.sheet.row i).toList).toList).flatMap
        (· ++ ['\n']) := by
    unfold text format
    rw [String.toList_join, List.flatMap_map, List.flatMap_map]
    exact List.flatMap_congr fun i _ => String.toList_append
  have free : ∀ line ∈ (List.finRange m.rows).map fun i =>
      (bracketed (-1) (m.sheet.row i).toList).toList, '\n' ∉ line := by
    rw [List.forall_mem_map]
    exact fun i _ => newline_notMem_bracketed _
  unfold readRows
  rw [lines, splitOn_lines free, List.dropLast_concat, List.map_map]
  exact List.map_congr_left fun i _ => readSeparated_bracketed _

example :
    let m : Matrix Float := ⟨2, 2, .whole ⟨#v[1, 2.5, -3, 0.125]⟩⟩
    m.text = "[1, 2.5]\n[-3, 0.125]\n" ∧
      readRows m.text = [["1", "2.5"], ["-3", "0.125"]] := by
  decide +kernel

/-- Matrices with the same text have the same shape and the same values, if there is a row. -/
theorem alike_of_text_eq {m m' : Matrix α} (someRow : 0 < m.rows) (same : m.text = m'.text) :
    m.Alike m' := by
  have read := congrArg readRows same
  rw [readRows_text, readRows_text] at read
  obtain ⟨rows, cols, sheet⟩ := m
  obtain ⟨rows', cols', sheet'⟩ := m'
  dsimp only at someRow read
  have sameRows : rows = rows' := by
    have lengths := congrArg List.length read
    rwa [List.length_map, List.length_map, List.length_finRange, List.length_finRange] at lengths
  subst sameRows
  have inRow (i : Fin rows) := List.map_inj_left.mp read i (List.mem_finRange i)
  have sameCols : cols = cols' := by
    have lengths := congrArg List.length (inRow ⟨0, someRow⟩)
    rwa [List.length_map, List.length_map, Vector.length_toList, Vector.length_toList] at lengths
  subst sameCols
  refine ⟨rfl, rfl, fun i j => LegibleScalar.same_of_positional_eq ?_⟩
  have inCell := congrArg (fun texts => texts[j.val]?) (inRow i)
  simpa using inCell

/-- Values of each kind, written down in one matrix and computed in the other. -/
theorem alike_of_text_eq_binary64 :
    let m : Matrix Float := ⟨2, 3, .whole ⟨#v[1, -0, 0.125, Scalar.nan, Scalar.inf, 0.1]⟩⟩
    let m' : Matrix Float :=
      ⟨2, 3, .whole ⟨#v[3 - 2, 0 * -1, 1 / 8, Scalar.inf - Scalar.inf, 1 / 0, 1 / 10]⟩⟩
    0 < m.rows ∧ m.text = "[1, -0, 0.125]\n[NaN, +Inf, 0.1]\n" ∧
      m'.text = "[1, -0, 0.125]\n[NaN, +Inf, 0.1]\n" ∧ m.Alike m' := by
  intro m m'
  have someRow : 0 < m.rows := Nat.two_pos
  have text : m.text = "[1, -0, 0.125]\n[NaN, +Inf, 0.1]\n" := by with_unfolding_all decide
  have text' : m'.text = "[1, -0, 0.125]\n[NaN, +Inf, 0.1]\n" := by with_unfolding_all decide
  exact ⟨someRow, text, text', alike_of_text_eq someRow (text.trans text'.symm)⟩

end Matrix

end EchoState
