import IotivityLite.Coap.TextMerging

/-!
# Splitting of texts

`coap_serialize_array_option` cuts a text at a separator and sends every part
as an option; the receiver joins the parts again.  The byte behind a separator
is not compared with it, and the loop runs over the end of the text.  So the
parts are the segments of the text only if every separator is followed by
another byte, and the text comes back under a condition on the separators at
its two ends.
-/

namespace IotivityLite

theorem ne_nil_of_cutsLast {separator : UInt8} {text : Bytes}
    (cut : cutsLast separator text = true) : text ≠ [] := by
  rintro rfl
  exact Bool.false_ne_true cut

theorem intercalate_textParts (separator : UInt8) (part rest : Bytes) :
    [separator].intercalate (textParts separator part rest) =
      part ++ if cutsLast separator rest then rest.dropLast else rest := by
  fun_induction textParts separator part rest
  case case1 part => simp [cutsLast]
  case case2 part => simp [cutsLast]
  case case3 part byte other => simp [cutsLast, other]
  case case4 part next rest ih =>
    rw [List.intercalate_cons_of_ne_nil (textParts_ne_nil _ _ _), ih]
    simp only [cutsLast, if_true]
    split_ifs with cut
    · simp [List.dropLast_cons_of_ne_nil (ne_nil_of_cutsLast cut)]
    · simp
  case case5 part byte next rest other ih =>
    rw [ih]
    simp only [cutsLast, other, if_false]
    split_ifs with cut
    · simp
    · simp

theorem textParts_eq_cons (separator : UInt8) (part rest : Bytes) :
    ∃ more later, textParts separator part rest = (part ++ more) :: later := by
  fun_induction textParts separator part rest
  case case1 part => exact ⟨[], [], by simp⟩
  case case2 part => exact ⟨[], [], by simp⟩
  case case3 part byte other => exact ⟨[byte], [], rfl⟩
  case case4 part next rest ih =>
    exact ⟨[], textParts separator [next] rest, by simp⟩
  case case5 part byte next rest other ih =>
    obtain ⟨more, later, parts⟩ := ih
    exact ⟨byte :: more, later, by simp [parts]⟩

theorem intercalate_concat (separator last : Bytes) {parts : List Bytes}
    (written : parts ≠ []) :
    separator.intercalate (parts ++ [last]) =
      separator.intercalate parts ++ (separator ++ last) := by
  induction parts with
  | nil => exact absurd rfl written
  | cons part rest ih =>
      cases rest with
      | nil => simp
      | cons next rest =>
          have later := ih (List.cons_ne_nil next rest)
          simp only [List.cons_append, List.intercalate_cons_cons] at later ⊢
          rw [later]
          simp

section Splits

variable {separator : UInt8}

private theorem length_of_overrun (splitting : separator ≠ 0) {beyond : Bytes}
    (again : beyond.getD 1 0 = separator) : 1 < beyond.length := by
  by_contra short
  rw [List.getD_eq_getElem?_getD, List.getElem?_eq_none (by omega)] at again
  exact splitting again.symm

theorem intercalate_parts_iff (splitting : separator ≠ 0)
    (part rest beyond : Bytes) :
    [separator].intercalate (textParts separator part rest ++
        overrunParts separator rest beyond) = part ++ rest ↔
      cutsLast separator rest = false := by
  have joined := intercalate_textParts separator part rest
  cases cut : cutsLast separator rest with
  | false =>
      rw [cut] at joined
      simpa [overrunParts, cut] using joined
  | true =>
      rw [cut, if_pos rfl] at joined
      have nonempty := List.length_pos_of_ne_nil (ne_nil_of_cutsLast cut)
      refine iff_of_false ?_ Bool.noConfusion
      intro same
      have lengths := congrArg List.length same
      unfold overrunParts at lengths
      by_cases again : beyond.getD 1 0 = separator
      · have long := length_of_overrun splitting again
        rw [if_pos ⟨cut, again⟩,
          intercalate_concat _ _ (textParts_ne_nil _ _ _), joined] at lengths
        simp only [List.length_append, List.length_dropLast,
          List.length_singleton, List.length_take] at lengths
        omega
      · rw [if_neg fun both => again both.2, List.append_nil, joined] at lengths
        simp only [List.length_append, List.length_dropLast] at lengths
        omega

theorem not_mem_of_mem_splitOn {text segment : Bytes}
    (member : segment ∈ text.splitOn separator) : separator ∉ segment := by
  induction text generalizing segment with
  | nil =>
      rw [List.splitOn_nil, List.mem_singleton] at member
      rw [member]
      exact List.not_mem_nil
  | cons byte rest ih =>
      rw [List.splitOn_cons_eq_if_modifyHead] at member
      split_ifs at member with same
      · rcases List.mem_cons.mp member with rfl | later
        · exact List.not_mem_nil
        · exact ih later
      · obtain ⟨first, others, segments⟩ :=
          List.exists_cons_of_ne_nil (List.splitOn_ne_nil separator rest)
        rw [segments] at member ih
        rcases List.mem_cons.mp member with rfl | later
        · have clean := ih List.mem_cons_self
          rw [List.mem_cons, not_or]
          refine ⟨?_, clean⟩
          rintro rfl
          simp at same
        · exact ih (List.mem_cons_of_mem _ later)

theorem eq_splitOn_iff {parts : List Bytes} {text : Bytes}
    (written : parts ≠ []) :
    parts = text.splitOn separator ↔
      [separator].intercalate parts = text ∧
        ∀ part ∈ parts, separator ∉ part := by
  constructor
  · rintro rfl
    exact ⟨List.intercalate_splitOn separator,
      fun part => not_mem_of_mem_splitOn⟩
  · rintro ⟨rfl, clean⟩
    exact (List.splitOn_intercalate separator clean written).symm

/-- Two separators, one right after the other. -/
def Doubled (separator : UInt8) (text : Bytes) : Prop :=
  [separator, separator] <:+: text

theorem doubled_cons {byte : UInt8} {rest : Bytes} :
    Doubled separator (byte :: rest) ↔
      (byte = separator ∧ rest.head? = some separator) ∨
        Doubled separator rest := by
  unfold Doubled
  rw [List.infix_cons_iff, List.cons_prefix_cons]
  apply or_congr_left
  apply and_congr eq_comm
  cases rest with
  | nil => simp
  | cons next rest => simp [eq_comm]

theorem not_doubled_nil : ¬ Doubled separator [] := by
  simp [Doubled]

theorem not_doubled_single (byte : UInt8) : ¬ Doubled separator [byte] := by
  rw [doubled_cons]
  simp [not_doubled_nil]

theorem clean_textParts_iff {part rest : Bytes}
    (whole : cutsLast separator rest = false) :
    (∀ value ∈ textParts separator part rest, separator ∉ value) ↔
      separator ∉ part ∧ ¬ Doubled separator rest := by
  fun_induction textParts separator part rest
  case case1 part => simp [not_doubled_nil]
  case case2 part => simp [cutsLast] at whole
  case case3 part byte other =>
    simp [not_doubled_single, Ne.symm other]
  case case4 part next rest ih =>
    simp only [cutsLast, if_true] at whole
    rw [List.forall_mem_cons, ih whole, doubled_cons, doubled_cons]
    simp only [List.mem_singleton, List.head?_cons, Option.some.injEq]
    by_cases same : next = separator
    · simp [same]
    · simp [same, Ne.symm same]
  case case5 part byte next rest other ih =>
    simp only [cutsLast, other, if_false] at whole
    rw [ih whole, @doubled_cons separator byte]
    simp [other, Ne.symm other]

theorem cutsLast_eq_false_iff {text : Bytes}
    (single : ¬ Doubled separator text) :
    cutsLast separator text = false ↔ EndsInside separator text := by
  refine ⟨?_, EndsInside.cutsLast_eq⟩
  fun_induction cutsLast separator text with
  | case1 => simp [EndsInside]
  | case2 byte => simp [EndsInside]
  | case3 next rest ih =>
      rw [doubled_cons, doubled_cons] at single
      intro whole last
      have other : next ≠ separator := by
        rintro rfl
        exact single (.inl ⟨rfl, rfl⟩)
      cases rest with
      | nil => exact other (by simpa using last)
      | cons byte rest =>
          refine ih (fun doubled => single (.inr (.inr doubled))) whole ?_
          simpa using last
  | case4 byte next rest other ih =>
      intro whole last
      rw [doubled_cons] at single
      refine ih (fun doubled => single (.inr doubled)) whole ?_
      simpa using last

theorem parts_eq_segments_iff (splitting : separator ≠ 0)
    (text beyond : Bytes) :
    textParts separator [] text ++ overrunParts separator text beyond =
        text.splitOn separator ↔
      EndsInside separator text ∧ ¬ Doubled separator text := by
  rw [eq_splitOn_iff (by simp [textParts_ne_nil])]
  have joined := intercalate_parts_iff splitting [] text beyond
  rw [List.nil_append] at joined
  rw [joined]
  constructor
  · rintro ⟨whole, clean⟩
    have single := ((@clean_textParts_iff separator [] text whole).mp
      fun part member => clean part (List.mem_append_left _ member)).2
    exact ⟨(cutsLast_eq_false_iff single).mp whole, single⟩
  · rintro ⟨ends, single⟩
    have whole := ends.cutsLast_eq
    refine ⟨whole, ?_⟩
    have nothing : overrunParts separator text beyond = [] := by
      simp [overrunParts, whole]
    rw [nothing, List.append_nil]
    exact (clean_textParts_iff whole).mpr ⟨List.not_mem_nil, single⟩

/-- The number of separators at the end of a text. -/
def trailing (separator : UInt8) (text : Bytes) : Nat :=
  (text.reverse.takeWhile (· == separator)).length

theorem trailing_cons (byte : UInt8) (rest : Bytes) :
    trailing separator (byte :: rest) =
      if trailing separator rest = rest.length then
        rest.length + if byte = separator then 1 else 0
      else trailing separator rest := by
  unfold trailing
  rw [List.reverse_cons, List.takeWhile_append, List.length_reverse]
  split_ifs with all same
  · simp [same]
  · simp [same]
  · rfl

theorem cutsLast_iff_odd (text : Bytes) :
    cutsLast separator text = true ↔ trailing separator text % 2 = 1 := by
  fun_induction cutsLast separator text with
  | case1 => simp [trailing]
  | case2 byte =>
      rw [trailing_cons]
      by_cases same : byte = separator
      · simp [trailing, same]
      · simp [trailing, same]
  | case3 next rest ih =>
      rw [ih, trailing_cons, trailing_cons, List.length_cons, if_pos rfl]
      have bounded : trailing separator rest ≤ rest.length := by
        have shorter := (List.takeWhile_prefix (l := rest.reverse)
          (· == separator)).length_le
        rwa [List.length_reverse] at shorter
      by_cases all : trailing separator rest = rest.length
      · by_cases same : next = separator
        · rw [if_pos all, if_pos same, if_pos rfl]
          omega
        · rw [if_pos all, if_neg same, if_neg (by omega)]
          omega
      · rw [if_neg all, if_neg (by omega)]
  | case4 byte next rest other ih =>
      rw [ih, trailing_cons byte, if_neg other]
      split_ifs with all
      · rw [all, Nat.add_zero]
      · rfl

theorem textParts_cons_other {byte : UInt8} (other : byte ≠ separator)
    (part rest : Bytes) :
    textParts separator part (byte :: rest) =
      textParts separator (part ++ [byte]) rest := by
  cases rest with
  | nil => simp [textParts, other]
  | cons next rest => rw [textParts, if_neg other]

theorem cutsLast_cons_other {byte : UInt8} (other : byte ≠ separator)
    (rest : Bytes) :
    cutsLast separator (byte :: rest) = cutsLast separator rest := by
  cases rest with
  | nil => simp [cutsLast, other]
  | cons next rest => rw [cutsLast, if_neg other]

private theorem dropWhile_parts {part : Bytes} (begun : part ≠ [])
    (rest : Bytes) (more : List Bytes) :
    (textParts separator part rest ++ more).dropWhile List.isEmpty =
      textParts separator part rest ++ more := by
  obtain ⟨bytes, later, parts⟩ := textParts_eq_cons separator part rest
  have full : (part ++ bytes).isEmpty = false := by
    simp [begun]
  rw [parts, List.cons_append, List.dropWhile_cons_of_neg]
  rw [full]
  exact Bool.false_ne_true

/-- Merging again gives the text without its leading separators. -/
def MergesBack (separator : UInt8) (text : Bytes) (parts : List Bytes) :
    Prop :=
  parts.foldl (mergeText separator) [] = text.dropWhile (· == separator)

private theorem mergesBack_plain (splitting : separator ≠ 0) {byte : UInt8}
    (other : byte ≠ separator) (rest beyond : Bytes) :
    MergesBack separator (byte :: rest)
        (textParts separator [] (byte :: rest) ++
          overrunParts separator (byte :: rest) beyond) ↔
      cutsLast separator rest = false := by
  unfold MergesBack
  rw [foldl_mergeText_nil, textParts_cons_other other, List.nil_append,
    dropWhile_parts (List.cons_ne_nil byte []),
    List.dropWhile_cons_of_neg (by simpa using other)]
  unfold overrunParts
  rw [cutsLast_cons_other other]
  exact intercalate_parts_iff splitting [byte] rest beyond

private theorem mergesBack_separator (splitting : separator ≠ 0)
    (beyond : Bytes) :
    MergesBack separator [separator]
        (textParts separator [] [separator] ++
          overrunParts separator [separator] beyond) ↔
      beyond.getD 1 0 ≠ separator := by
  have cut : cutsLast separator [separator] = true := by
    simp [cutsLast]
  have expected : [separator].dropWhile (· == separator) = [] := by
    simp
  unfold MergesBack overrunParts
  rw [cut, expected, textParts, if_pos rfl]
  by_cases again : beyond.getD 1 0 = separator
  · have long := length_of_overrun splitting again
    rw [if_pos ⟨rfl, again⟩]
    refine iff_of_false ?_ (not_not_intro again)
    intro merged
    have empty : (beyond.take 1).length = 0 := congrArg List.length merged
    rw [List.length_take] at empty
    omega
  · rw [if_neg fun both => again both.2]
    exact iff_of_true rfl again

private theorem dropWhile_ne_cons (text more : Bytes) :
    text.dropWhile (· == separator) ≠ separator :: more := by
  induction text with
  | nil => exact (List.cons_ne_nil _ _).symm
  | cons byte rest ih =>
      by_cases same : byte = separator
      · rw [List.dropWhile_cons_of_pos (by simpa using same)]
        exact ih
      · rw [List.dropWhile_cons_of_neg (by simpa using same)]
        intro equal
        exact same (List.cons.inj equal).1

private theorem mergesBack_leading (splitting : separator ≠ 0)
    (next : UInt8) (rest beyond : Bytes) :
    MergesBack separator (separator :: next :: rest)
        (textParts separator [] (separator :: next :: rest) ++
          overrunParts separator (separator :: next :: rest) beyond) ↔
      next ≠ separator ∧ cutsLast separator rest = false := by
  unfold MergesBack overrunParts
  rw [foldl_mergeText_nil, textParts, if_pos rfl, cutsLast, if_pos rfl,
    List.cons_append, List.dropWhile_cons_of_pos rfl,
    dropWhile_parts (List.cons_ne_nil next []),
    List.dropWhile_cons_of_pos (by simp)]
  by_cases same : next = separator
  · subst same
    refine iff_of_false ?_ fun both => both.1 rfl
    obtain ⟨more, later, parts⟩ := textParts_eq_cons next [next] rest
    intro merged
    rw [parts, List.cons_append, List.cons_append] at merged
    cases tail : later ++ (if cutsLast next rest = true ∧
        beyond.getD 1 0 = next then [beyond.take 1] else []) with
    | nil =>
        rw [tail, List.intercalate_singleton] at merged
        exact dropWhile_ne_cons _ _ merged.symm
    | cons part others =>
        rw [tail, List.intercalate_cons_cons] at merged
        exact dropWhile_ne_cons _ _ merged.symm
  · rw [List.dropWhile_cons_of_neg (by simpa using same), and_iff_right same]
    exact intercalate_parts_iff splitting [next] rest beyond

theorem mergesBack_iff (splitting : separator ≠ 0) (text beyond : Bytes) :
    MergesBack separator text
        (textParts separator [] text ++
          overrunParts separator text beyond) ↔
      ¬ [separator, separator] <+: text ∧
        (trailing separator text % 2 = 0 ∨
          text = [separator] ∧ beyond.getD 1 0 ≠ separator) := by
  have even : trailing separator text % 2 = 0 ↔
      cutsLast separator text = false := by
    rw [← Bool.not_eq_true, cutsLast_iff_odd]
    omega
  rw [even]
  cases text with
  | nil => simp [MergesBack, textParts, overrunParts, cutsLast, mergeText]
  | cons byte rest =>
      by_cases same : byte = separator
      · subst same
        cases rest with
        | nil =>
            rw [mergesBack_separator splitting]
            simp [cutsLast]
        | cons next rest =>
            rw [mergesBack_leading splitting, cutsLast, if_pos rfl,
              List.cons_prefix_cons, List.cons_prefix_cons]
            by_cases again : next = byte
            · simp [again]
            · simp [again, Ne.symm again]
      · rw [mergesBack_plain splitting same, cutsLast_cons_other same]
        simp [same, Ne.symm same]

end Splits

private theorem exists_looked_behind (array : CString) (separator : UInt8)
    (fuel : Nat) {j partStart : Nat} (inside : j ≤ array.bytes.length + 1)
    (enough : array.bytes.length + 1 < fuel + j) :
    ∃ index ∈ (splitTextLoop array separator fuel j partStart).looked,
      array.bytes.length ≤ index := by
  induction fuel generalizing j partStart with
  | zero => omega
  | succ fuel ih =>
      rcases Nat.lt_or_ge j array.bytes.length with before | behind
      · rw [splitTextLoop, if_pos inside]
        split_ifs
        · obtain ⟨index, member, beyond⟩ :=
            @ih (j + 2) (j + 1) (by omega) (by omega)
          refine ⟨index, ?_, beyond⟩
          exact List.mem_cons_of_mem _ (List.mem_append_right _ member)
        · obtain ⟨index, member, beyond⟩ :=
            @ih (j + 1) partStart (by omega) (by omega)
          exact ⟨index, List.mem_cons_of_mem _ member, beyond⟩
      · refine ⟨j, ?_, behind⟩
        rw [splitTextLoop, if_pos inside]
        split_ifs
        · exact List.mem_cons_self
        · exact List.mem_cons_self

theorem looked_inside_iff (array : CString) (separator : UInt8) :
    (∀ index ∈ (splitText array separator).looked,
        index < array.bytes.length) ↔
      separator = 0 := by
  unfold splitText
  split_ifs with whole
  · refine iff_of_true ?_ whole
    intro index member
    exact List.mem_range.mp member
  · refine iff_of_false ?_ whole
    intro inside
    obtain ⟨index, member, behind⟩ := @exists_looked_behind array separator
      (array.bytes.length + 2) 0 0 (by omega) (by omega)
    exact absurd (inside index member) (by omega)

/-- `coap_merge_multi_option` called for one option value after the other. -/
def mergeOptions (memory : Mem) (separator : UInt8) (options : List Span) :
    Mem × Span :=
  options.foldl
    (fun state option =>
      coapMergeMultiOption state.1 state.2 option separator)
    (memory, Span.null)

/-- The values lie one behind the other from `stop` on, with a header before
each. -/
def Spaced : (stop : Nat) → List Span → Prop
  | _, [] => True
  | stop, option :: rest => stop < option.start ∧ Spaced option.stop rest

private theorem text_foldl_merge {memory : Mem} {separator : UInt8}
    {options : List Span} {stop : Nat} (spaced : Spaced stop options)
    {state : Mem × Span} (agree : AgreeAbove stop state.1 memory)
    (room : state.2.length = 0 ∨ state.2.stop ≤ stop) :
    (options.foldl
        (fun state option =>
          coapMergeMultiOption state.1 state.2 option separator)
        state).1.text
      (options.foldl
        (fun state option =>
          coapMergeMultiOption state.1 state.2 option separator) state).2 =
      (options.map memory.text).foldl (mergeText separator)
        (state.1.text state.2) := by
  induction options generalizing stop state with
  | nil => rfl
  | cons option rest ih =>
      obtain ⟨later, spaced⟩ := spaced
      obtain ⟨text, ends, -, above, -⟩ := merged_coapMergeMultiOption state.1
        separator (room.imp id fun ends => Nat.lt_of_le_of_lt ends later)
      have value : state.1.text option = memory.text option :=
        agree.text (Nat.le_of_lt later)
      rw [List.foldl_cons, List.map_cons, List.foldl_cons, ← value, ← text]
      refine ih spaced ?_ (.inr ends)
      intro address beyond
      refine (above address beyond).trans (agree address ?_)
      unfold Span.stop at beyond
      omega

theorem text_mergeOptions {memory : Mem} (separator : UInt8)
    {options : List Span} (spaced : Spaced 0 options) :
    (mergeOptions memory separator options).1.text
        (mergeOptions memory separator options).2 =
      (options.map memory.text).foldl (mergeText separator) [] :=
  text_foldl_merge spaced (fun _ _ => rfl) (.inl rfl)

/-- The options of the text are its segments, no byte outside the text is
read, and merging them in a buffer gives the text without its leading
separators. -/
structure SplitsAndMerges (array : CString) (separator : UInt8)
    (memory : Mem) (options : List Span) : Prop where
  segments : (splitText array separator).parts =
    array.bytes.splitOn separator
  inside : ∀ index ∈ (splitText array separator).looked,
    index < array.bytes.length
  merged : (mergeOptions memory separator options).1.text
      (mergeOptions memory separator options).2 =
    array.bytes.dropWhile (· == separator)

private theorem segments_iff (array : CString) (separator : UInt8) :
    (splitText array separator).parts = array.bytes.splitOn separator ↔
      separator = 0 ∧ 0 ∉ array.bytes ∨
        separator ≠ 0 ∧ EndsInside separator array.bytes ∧
          ¬ Doubled separator array.bytes := by
  by_cases whole : separator = 0
  · subst whole
    unfold splitText
    rw [if_pos rfl, eq_splitOn_iff (List.cons_ne_nil _ _)]
    simp
  · rw [parts_splitText array whole, parts_eq_segments_iff whole]
    simp [whole]

private theorem merged_iff (array : CString) (separator : UInt8) :
    MergesBack separator array.bytes (splitText array separator).parts ↔
      separator = 0 ∧ array.bytes.head? ≠ some 0 ∨
        separator ≠ 0 ∧ ¬ [separator, separator] <+: array.bytes ∧
          (trailing separator array.bytes % 2 = 0 ∨
            array.bytes = [separator] ∧
              array.beyond.getD 1 0 ≠ separator) := by
  by_cases whole : separator = 0
  · subst whole
    unfold splitText MergesBack
    rw [if_pos rfl]
    change array.bytes = _ ↔ _
    simp only [true_and, ne_eq, not_true, false_and, or_false]
    cases array.bytes with
    | nil => simp
    | cons byte rest =>
        by_cases zero : byte = 0
        · subst zero
          refine iff_of_false ?_ fun other => other rfl
          exact (dropWhile_ne_cons _ _).symm
        · rw [List.dropWhile_cons_of_neg (by simpa using zero)]
          simpa using zero
  · rw [parts_splitText array whole, mergesBack_iff whole]
    simp [whole]

/-- The options of a text are the parts it is split into.  They are its
segments if every separator is followed by another byte, and they make the
text again under a condition on its ends; but the loop always reads behind a
text that it splits. -/
theorem array_option_inverse_iff (number current : Nat) (buffer : Bool)
    (array : CString) (separator : UInt8) {memory : Mem}
    {options : List Span} (spaced : Spaced 0 options)
    (received : options.map memory.text =
      (splitText array separator).parts) :
    coapSerializeArrayOption number current buffer array separator =
        Chunk.emit buffer (encodeOptions current
          ((splitText array separator).parts.map (RawOption.mk number))) ∧
      ((splitText array separator).parts = array.bytes.splitOn separator ↔
        separator = 0 ∧ 0 ∉ array.bytes ∨
          separator ≠ 0 ∧ EndsInside separator array.bytes ∧
            ¬ Doubled separator array.bytes) ∧
      ((mergeOptions memory separator options).1.text
            (mergeOptions memory separator options).2 =
          array.bytes.dropWhile (· == separator) ↔
        separator = 0 ∧ array.bytes.head? ≠ some 0 ∨
          separator ≠ 0 ∧ ¬ [separator, separator] <+: array.bytes ∧
            (trailing separator array.bytes % 2 = 0 ∨
              array.bytes = [separator] ∧
                array.beyond.getD 1 0 ≠ separator)) ∧
      (SplitsAndMerges array separator memory options ↔
        separator = 0 ∧ 0 ∉ array.bytes) := by
  have merges := merged_iff array separator
  unfold MergesBack at merges
  rw [← received, ← text_mergeOptions separator spaced] at merges
  refine ⟨coapSerializeArrayOption_eq_emit _ _ _ _ _,
    segments_iff array separator, merges, ?_⟩
  constructor
  · rintro ⟨segments, inside, -⟩
    have whole := (looked_inside_iff array separator).mp inside
    rcases (segments_iff array separator).mp segments with plain |
      ⟨splitting, -⟩
    · exact plain
    · exact absurd whole splitting
  · rintro ⟨whole, clean⟩
    refine ⟨(segments_iff array separator).mpr (.inl ⟨whole, clean⟩),
      (looked_inside_iff array separator).mpr whole,
      merges.mpr (.inl ⟨whole, ?_⟩)⟩
    intro first
    exact clean (List.mem_of_mem_head? first)

namespace SplitMessage

/-- The options "a" and "b" with their headers. -/
def received : Mem := .ofBytes [0xB1, 97, 0x01, 98]

theorem spaced : Spaced 0 [⟨1, 1⟩, ⟨3, 1⟩] := by
  refine ⟨by decide, by decide, trivial⟩

end SplitMessage

theorem array_option_of_two_segments :
    (mergeOptions SplitMessage.received 47 [⟨1, 1⟩, ⟨3, 1⟩]).1.text
        (mergeOptions SplitMessage.received 47 [⟨1, 1⟩, ⟨3, 1⟩]).2 =
      [97, 47, 98] :=
  (array_option_inverse_iff 11 0 true ⟨[97, 47, 98], []⟩ 47
    SplitMessage.spaced (by decide)).2.2.1.mpr (.inr (by decide))

/-- The empty segment of "a//b" is not sent, and the byte behind the text is
read. -/
theorem empty_segment_not_sent :
    (splitText ⟨[97, 47, 47, 98], [0]⟩ 47).parts ≠
        [97, 47, 47, 98].splitOn 47 ∧
      4 ∈ (splitText ⟨[97, 47, 47, 98], [0]⟩ 47).looked := by
  decide

end IotivityLite
