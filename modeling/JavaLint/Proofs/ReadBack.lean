import JavaLint.Json.Reader
import JavaLint.Proofs.Digits
import JavaLint.Proofs.MemberOrder
import Mathlib.Tactic.IntervalCases
import Mathlib.Tactic.SplitIfs

/-! Reading canonical text back. The reader takes in what the printer wrote, piece by piece: the
characters of a string, the digits of an integer, the blanks of a layout, and from these the items
and members of containers. A value without floating-point numbers comes back with its members in
order. -/
namespace JavaLint.Json

def NotReal : Json → Prop
  | .real _ => False
  | _ => True

theorem notReal_inOrder (value : Json) : value.inOrder.NotReal ↔ value.NotReal := by
  cases value <;> simp [inOrder, NotReal]

def ReadsBack {α : Type} (result : Except ReadError (Read α)) (value : α) (rest : List Char) :
    Prop :=
  ∃ next, result = .ok (value, next, rest)

/-- Reading one part after another. -/
theorem ReadsBack.bind {α β : Type} {result : Except ReadError (Read α)} {value : α} {final : β}
    {rest after : List Char} {next : Read α → Except ReadError (Read β)}
    (h : ReadsBack result value rest)
    (hnext : ∀ offset, ReadsBack (next (value, offset, rest)) final after) :
    ReadsBack (result >>= next) final after := by
  obtain ⟨offset, rfl⟩ := h
  exact hnext offset

theorem hexValue?_hexDigit {d : Nat} (h : d < 16) : hexValue? (Text.hexDigit d) = some d := by
  interval_cases d <;> decide

theorem hexUnit?_hexDigits {n : Nat} (h : n < 0x10000) :
    ∃ a b c d, Text.hexDigits 4 n = [a, b, c, d] ∧ hexUnit? a b c d = some n := by
  refine ⟨_, _, _, _, rfl, ?_⟩
  simp only [hexUnit?, hexValue?_hexDigit (Nat.mod_lt _ (by decide : 0 < 16)), Option.pure_def,
    Option.bind_eq_bind, Option.bind_some, Option.some.injEq]
  omega

theorem readUnit_of_lt {n : Nat} (h : n < 0x20) : readUnit none n = ([Char.ofNat n], none) := by
  have hhigh : isHighSurrogate n = false := by
    rw [isHighSurrogate, Bool.and_eq_false_iff, decide_eq_false_iff_not]
    omega
  have hlow : isLowSurrogate n = false := by
    rw [isLowSurrogate, Bool.and_eq_false_iff, decide_eq_false_iff_not]
    omega
  simp [readUnit, hhigh, hlow]

/-- One step of reading a string takes in what one character was written as. -/
theorem readString_escapeChar (start offset : Nat) (c : Char) {more : List Char} (h : more ≠ []) :
    readString start offset none (escapeChar c ++ more) = do
      let (text, next) ← readString start (offset + (escapeChar c).length) none more
      return (c :: text, next) := by
  -- a numbered escape is read only if a character stands behind its four digits
  obtain ⟨e, rest, rfl⟩ := List.exists_cons_of_ne_nil h
  unfold escapeChar
  split_ifs with hquote hback hline hreturn htab hbell hfeed hcontrol
  · rw [eq_of_beq hquote]; rfl
  · rw [eq_of_beq hback]; rfl
  · rw [eq_of_beq hline]; rfl
  · rw [eq_of_beq hreturn]; rfl
  · rw [eq_of_beq htab]; rfl
  · rw [eq_of_beq hbell]; rfl
  · rw [eq_of_beq hfeed]; rfl
  · obtain ⟨a, b, c', d, hdigits, hunit⟩ := hexUnit?_hexDigits (show c.toNat < 0x10000 by omega)
    rw [hdigits]
    simp [readString, hunit, readUnit_of_lt hcontrol]
  · have hne : c ≠ '\\' := by simpa using hback
    rw [List.singleton_append, readString]
    · simp [hcontrol, flush]
    · simpa using hquote
    · intro _ _ _ _ _ _ hc _
      exact hne hc
    · intro hc _
      exact hne hc
    · intro _ hc _
      exact hne hc
    · intro _ _ hc _
      exact hne hc

theorem readString_written (start offset : Nat) (text rest : List Char) :
    ReadsBack (readString start offset none (text.flatMap escapeChar ++ '"' :: rest)) text
      rest := by
  induction text generalizing offset with
  | nil => exact ⟨_, rfl⟩
  | cons c text ih =>
    obtain ⟨next, hnext⟩ := ih (offset + (escapeChar c).length)
    refine ⟨next, ?_⟩
    rw [List.flatMap_cons, List.append_assoc, readString_escapeChar _ _ _ (by simp), hnext]
    rfl

def continuesNumber (c : Char) : Bool := isDigit c || c == '.' || c == 'e' || c == 'E'

def Ends : List Char → Prop
  | [] => True
  | c :: _ => continuesNumber c = false

theorem isDigit_of_mem_toDigits {n : Nat} {c : Char} (h : c ∈ Nat.toDigits 10 n) :
    isDigit c = true := by
  have hd := Nat.isDigit_of_mem_toDigits (by decide) (by decide) h
  simpa [Char.isDigit, isDigit, Char.le_def] using hd

theorem spanDigits_toDigits (n : Nat) {rest : List Char} (h : Ends rest) :
    spanDigits (Nat.toDigits 10 n ++ rest) = (Nat.toDigits 10 n, rest) := by
  have hdigits : ∀ c ∈ Nat.toDigits 10 n, isDigit c = true := fun _ => isDigit_of_mem_toDigits
  have hrest : rest.takeWhile isDigit = [] ∧ rest.dropWhile isDigit = rest := by
    cases rest with
    | nil => exact ⟨rfl, rfl⟩
    | cons c more =>
      have hc : isDigit c = false := by simp_all [Ends, continuesNumber]
      simp [hc]
  rw [spanDigits, List.takeWhile_append_of_pos hdigits, List.dropWhile_append_of_pos hdigits,
    hrest.1, hrest.2, List.append_nil]

theorem readWhole_toDigits (n : Nat) {rest : List Char} (h : Ends rest) :
    readWhole (Nat.toDigits 10 n ++ rest) = some (Nat.toDigits 10 n, rest) := by
  obtain ⟨k, hk, more, hdigits, hzero⟩ := Numeral.toDigits_head n
  by_cases h0 : k = 0
  · rw [hzero h0]
    rfl
  · rw [readWhole, spanDigits_toDigits n h]
    · rw [hdigits]
    · intro tail heq
      rw [hdigits, List.cons_append, List.cons.injEq, Nat.digitChar_eq_zero] at heq
      exact h0 heq.1

theorem readFraction_of_ends {rest : List Char} (h : Ends rest) :
    readFraction rest = ([], rest) := by
  rw [readFraction.eq_def]
  split
  · simp [Ends, continuesNumber] at h
  · rfl

theorem readExponent_of_ends {rest : List Char} (h : Ends rest) : readExponent rest = none := by
  cases rest with
  | nil => rfl
  | cons c more =>
    have hc : (c == 'e' || c == 'E') = false := by simp_all [Ends, continuesNumber]
    simp [readExponent, hc]

theorem readNumber_toDigits (negative : Bool) (start offset n : Nat) {rest : List Char}
    (h : Ends rest) :
    ReadsBack (readNumber negative start offset (Nat.toDigits 10 n ++ rest))
      (.int (if negative then -(n : Int) else n)) rest := by
  refine ⟨offset + (Nat.toDigits 10 n).length + 0, ?_⟩
  simp only [readNumber, readWhole_toDigits n h, readFraction_of_ends h, readExponent_of_ends h,
    digitsValue, Nat.ofDigitChars_ten_toDigits, List.isEmpty_nil, if_true]

theorem readValue_digit (fuel offset : Nat) {k : Nat} (h : k < 10) (more : List Char) :
    readValue (fuel + 1) offset (k.digitChar :: more) =
      readNumber false offset offset (k.digitChar :: more) := by
  interval_cases k <;> rfl

theorem readValue_minus (fuel offset : Nat) {k : Nat} (h : k < 10) (more : List Char) :
    readValue (fuel + 1) offset ('-' :: k.digitChar :: more) =
      readNumber true offset (offset + 1) (k.digitChar :: more) := by
  interval_cases k <;> rfl

theorem readValue_decimal (fuel offset : Nat) (n : Int) {rest : List Char} (h : Ends rest) :
    ReadsBack (readValue (fuel + 1) offset (Numeral.decimal n ++ rest)) (.int n) rest := by
  cases n with
  | ofNat n =>
    obtain ⟨k, hk, more, hdigits, -⟩ := Numeral.toDigits_head n
    have hread := readNumber_toDigits false offset offset n h
    rw [Numeral.decimal, hdigits, List.cons_append, readValue_digit fuel offset hk,
      ← List.cons_append, ← hdigits]
    exact hread
  | negSucc n =>
    obtain ⟨k, hk, more, hdigits, -⟩ := Numeral.toDigits_head (n + 1)
    have hread := readNumber_toDigits true offset (offset + 1) (n + 1) h
    rw [Numeral.decimal, hdigits, List.cons_append, List.cons_append,
      readValue_minus fuel offset hk, ← List.cons_append, ← hdigits]
    exact hread

theorem skipSpace_append (offset : Nat) {gap : List Char} (hgap : ∀ c ∈ gap, isSpace c = true)
    {c : Char} (hc : isSpace c = false) (more : List Char) :
    skipSpace offset (gap ++ c :: more) = (offset + gap.length, c :: more) := by
  induction gap generalizing offset with
  | nil => simp [skipSpace, hc]
  | cons blank gap ih =>
    rw [List.forall_mem_cons] at hgap
    rw [List.cons_append, skipSpace, if_pos hgap.1, ih _ hgap.2, List.length_cons]
    congr 1
    omega

theorem lineStart_blank (layout : Layout) (level : Nat) :
    ∀ c ∈ layout.lineStart level, isSpace c = true := by
  intro c h
  cases layout with
  | oneLine => simp [Layout.lineStart] at h
  | indented width =>
    rcases List.mem_cons.mp h with rfl | h
    · rfl
    · rw [List.eq_of_mem_replicate h]
      rfl

def Layout.gap : Layout → Nat → List Char
  | .oneLine, _ => [' ']
  | .indented width, level => Layout.lineStart (.indented width) level

theorem separator_eq (layout : Layout) (level : Nat) :
    layout.separator level = ',' :: layout.gap level := by
  cases layout <;> rfl

theorem gap_blank (layout : Layout) (level : Nat) : ∀ c ∈ layout.gap level, isSpace c = true := by
  cases layout with
  | oneLine =>
    intro c h
    rw [List.mem_singleton.mp h]
    rfl
  | indented width => exact lineStart_blank (.indented width) level

/-- What stands behind an entry of a container: its closing bracket and the rest of the text, or the
next entry and what stands behind that. -/
def Layout.behind (layout : Layout) (level : Nat) (closing : Char) (rest : List Char) :
    List (List Char) → List Char
  | [] => layout.lineStart level ++ closing :: rest
  | entry :: entries =>
    ',' :: (layout.gap (level + 1) ++ (entry ++ layout.behind level closing rest entries))

theorem enclose_cons (layout : Layout) (level : Nat) (opening closing : Char) (entry : List Char)
    (entries : List (List Char)) (rest : List Char) :
    layout.enclose level opening closing (entry :: entries) ++ rest =
      opening :: (layout.lineStart (level + 1) ++
        (entry ++ layout.behind level closing rest entries)) := by
  have hjoin : List.intercalate (layout.separator (level + 1)) (entry :: entries) ++
      (layout.lineStart level ++ closing :: rest) =
      entry ++ layout.behind level closing rest entries := by
    induction entries generalizing entry with
    | nil => simp [Layout.behind]
    | cons other entries ih =>
      rw [List.intercalate_cons_cons, List.append_assoc, List.append_assoc, ih other, separator_eq,
        Layout.behind, List.cons_append]
  rw [← hjoin]
  simp [Layout.enclose]

theorem ends_behind (layout : Layout) (level : Nat) (closing : Char)
    (h : continuesNumber closing = false) (rest : List Char) (entries : List (List Char)) :
    Ends (layout.behind level closing rest entries) := by
  cases entries with
  | nil =>
    cases layout with
    | oneLine => exact h
    | indented width => rfl
  | cons entry entries => rfl

theorem skipSpace_closing (layout : Layout) (level offset : Nat) {closing : Char}
    (h : isSpace closing = false) (rest : List Char) :
    skipSpace offset (layout.behind level closing rest []) =
      (offset + (layout.lineStart level).length, closing :: rest) :=
  skipSpace_append offset (lineStart_blank layout level) h rest

theorem skipSpace_comma (offset : Nat) (more : List Char) :
    skipSpace offset (',' :: more) = (offset, ',' :: more) :=
  rfl

def Begins (text : List Char) : Prop :=
  ∃ c more, text = c :: more ∧ isSpace c = false ∧ c ≠ ']' ∧ c ≠ '\uFEFF'

theorem Begins.append {text : List Char} (h : Begins text) (rest : List Char) :
    Begins (text ++ rest) := by
  obtain ⟨c, more, rfl, hc⟩ := h
  exact ⟨c, more ++ rest, rfl, hc⟩

theorem Begins.skipSpace {text gap : List Char} (h : Begins text)
    (hgap : ∀ c ∈ gap, isSpace c = true) (offset : Nat) :
    skipSpace offset (gap ++ text) = (offset + gap.length, text) := by
  obtain ⟨c, more, rfl, hc, -⟩ := h
  exact skipSpace_append offset hgap hc more

theorem renderItems_eq_map (layout : Layout) (level : Nat) (items : List Json) :
    renderItems layout level items = items.map (renderAt layout level) := by
  induction items with
  | nil => rfl
  | cons item items ih => rw [renderItems, ih, List.map_cons]

theorem renderMembers_eq_map (layout : Layout) (level : Nat) (members : List (String × Json)) :
    renderMembers layout level members = members.map fun m => (m.1, renderAt layout level m.2) := by
  induction members with
  | nil => rfl
  | cons member members ih => rw [renderMembers, ih, List.map_cons]

def memberText (layout : Layout) (level : Nat) (member : String × Json) : List Char :=
  renderString member.1.toList ++ [':', ' '] ++ renderAt layout level member.2

theorem renderAt_arr (layout : Layout) (level : Nat) (items : List Json) :
    renderAt layout level (.arr items) =
      layout.enclose level '[' ']' (items.map (renderAt layout (level + 1))) := by
  rw [renderAt, renderItems_eq_map]

theorem renderAt_obj (layout : Layout) (level : Nat) (members : List (String × Json)) :
    renderAt layout level (.obj members) = layout.enclose level '\x7b' '\x7d'
      ((sortByKey members).map (memberText layout (level + 1))) := by
  rw [renderAt, renderMembers_eq_map, sortByKey_map, List.map_map]
  rfl

/-- The text of a value does not depend on the order of members. -/
theorem renderAt_inOrder {value : Json} (h : value.Everywhere DistinctKeys) (layout : Layout)
    (level : Nat) : renderAt layout level value.inOrder = renderAt layout level value := by
  induction value using inside_out generalizing level with
  | step value ih =>
    have hin : ∀ child ∈ value.children, ∀ level,
        renderAt layout level child.inOrder = renderAt layout level child :=
      fun child hc => ih child hc (h.child hc)
    cases value with
    | arr items =>
      rw [inOrder_arr, renderAt_arr, renderAt_arr, List.map_map]
      exact congrArg _ (List.map_congr_left fun item hi => hin item hi _)
    | obj members =>
      have hsorted : sortByKey (sortByKey members) = sortByKey members :=
        sortByKey_of_increasing (sortByKey_increasing h.self)
      rw [inOrder_obj, renderAt_obj, renderAt_obj, sortByKey_map, hsorted, List.map_map]
      refine congrArg _ (List.map_congr_left fun member hm => ?_)
      have hchild : member.2 ∈ children (.obj members) :=
        List.mem_map.mpr ⟨member, (sortByKey_perm members).mem_iff.mp hm, rfl⟩
      simp only [Function.comp_apply, memberText, hin _ hchild]
    | null | bool | int | real | str => rfl

theorem begins_enclose (layout : Layout) (level : Nat) {opening : Char} (closing : Char)
    (entries : List (List Char)) (h : Begins [opening]) :
    Begins (layout.enclose level opening closing entries) := by
  have hc := h.append
  cases entries with
  | nil => exact hc [closing]
  | cons entry entries =>
    simpa [Layout.enclose] using hc _

theorem begins_renderAt (layout : Layout) (level : Nat) {value : Json} (h : value.NotReal) :
    Begins (renderAt layout level value) := by
  cases value with
  | null => exact ⟨'n', _, rfl, by decide⟩
  | bool b => cases b with
    | true => exact ⟨'t', _, rfl, by decide⟩
    | false => exact ⟨'f', _, rfl, by decide⟩
  | int n =>
    cases n with
    | ofNat n =>
      obtain ⟨k, hk, more, hdigits, -⟩ := Numeral.toDigits_head n
      refine ⟨k.digitChar, more, hdigits, ?_⟩
      interval_cases k <;> decide
    | negSucc n => exact ⟨'-', _, rfl, by decide⟩
  | real x => exact h.elim
  | str text => exact ⟨'"', _, rfl, by decide⟩
  | arr items =>
    rw [renderAt_arr]
    exact begins_enclose _ _ _ _ ⟨'[', [], rfl, by decide⟩
  | obj members =>
    rw [renderAt_obj]
    exact begins_enclose _ _ _ _ ⟨'\x7b', [], rfl, by decide⟩

/-- The text of a value at a level is read back, whatever follows that ends a number. A bracket and
the entry behind it take one step each, so two steps for every character are enough. -/
def IsRead (layout : Layout) (level : Nat) (value : Json) : Prop :=
  ∀ fuel offset rest, Ends rest → 2 * (renderAt layout level value ++ rest).length ≤ fuel →
    ReadsBack (readValue fuel offset (renderAt layout level value ++ rest)) value rest

/-- The items of an array, from one of them on. -/
theorem readItems_behind {layout : Layout} {level : Nat} {item : Json} {items : List Json}
    (hread : ∀ other ∈ item :: items, IsRead layout (level + 1) other)
    (hreal : ∀ other ∈ items, other.NotReal) (offset : Nat) (rest : List Char) {fuel : Nat}
    (hfuel : 2 * (renderAt layout (level + 1) item ++
      layout.behind level ']' rest (items.map (renderAt layout (level + 1)))).length < fuel) :
    ReadsBack
      (readItems fuel offset (renderAt layout (level + 1) item ++
        layout.behind level ']' rest (items.map (renderAt layout (level + 1)))))
      (item :: items) rest := by
  induction items generalizing item fuel offset with
  | nil =>
    obtain ⟨fuel, rfl⟩ : ∃ more, fuel = more + 1 := ⟨fuel - 1, by omega⟩
    have hitem := hread item List.mem_cons_self fuel offset _
      (ends_behind layout level ']' rfl rest []) (Nat.le_of_lt_succ hfuel)
    have hclose : isSpace ']' = false := rfl
    rw [readItems]
    refine hitem.bind fun offset => ?_
    simp only [skipSpace_closing layout level offset hclose rest]
    exact ⟨_, rfl⟩
  | cons other items ih =>
    obtain ⟨fuel, rfl⟩ : ∃ more, fuel = more + 1 := ⟨fuel - 1, by omega⟩
    have hitem := hread item List.mem_cons_self fuel offset _
      (ends_behind layout level ']' rfl rest _) (Nat.le_of_lt_succ hfuel)
    rw [List.forall_mem_cons] at hreal
    have hbegins := (begins_renderAt layout (level + 1) hreal.1).append
      (layout.behind level ']' rest (items.map (renderAt layout (level + 1))))
    rw [readItems]
    refine hitem.bind fun offset => ?_
    have hskip := hbegins.skipSpace (gap_blank layout (level + 1)) (offset + 1)
    simp only [List.map_cons, Layout.behind, skipSpace_comma, hskip]
    rw [List.forall_mem_cons] at hread
    refine (ih hread.2 hreal.2 _ ?_).bind fun last => ⟨last, rfl⟩
    -- the comma alone pays for the step that was taken
    simp only [Layout.behind, List.map_cons, List.length_append, List.length_cons] at hfuel ⊢
    omega

theorem memberText_append (layout : Layout) (level : Nat) (member : String × Json)
    (tail : List Char) :
    memberText layout level member ++ tail = '"' :: (member.1.toList.flatMap escapeChar ++
      '"' :: ':' :: ' ' :: (renderAt layout level member.2 ++ tail)) := by
  simp [memberText, renderString]

theorem length_renderAt_le_memberText (layout : Layout) (level : Nat) (member : String × Json)
    (tail : List Char) :
    (renderAt layout level member.2 ++ tail).length ≤
      (memberText layout level member ++ tail).length := by
  simp only [memberText, List.length_append]
  omega

def afterValue (fuel : Nat) (key : String) :
    Read Json → Except ReadError (Read (List (String × Json)))
  | (value, offset, rest) =>
    match skipSpace offset rest with
    | (offset, '\x7d' :: rest) => return ([(key, value)], offset + 1, rest)
    | (offset, ',' :: rest) => do
      let (offset, rest) := skipSpace (offset + 1) rest
      let (members, next) ← readMembers fuel offset rest
      return ((key, value) :: members, next)
    | (offset, _) => .error (.malformed offset)

theorem readMembers_memberText {layout : Layout} {level : Nat} {member : String × Json}
    (h : member.2.NotReal) (fuel offset : Nat) (tail : List Char) :
    ∃ next, readMembers (fuel + 1) offset (memberText layout level member ++ tail) =
      readValue fuel next (renderAt layout level member.2 ++ tail) >>=
        afterValue fuel member.1 := by
  obtain ⟨next, hkey⟩ := readString_written offset (offset + 1) member.1.toList
    (':' :: ' ' :: (renderAt layout level member.2 ++ tail))
  have hbegins := (begins_renderAt layout level h).append tail
  have hblank : ∀ c ∈ [' '], isSpace c = true := by
    intro c hc
    rw [List.mem_singleton.mp hc]
    rfl
  have hskip := hbegins.skipSpace hblank (next + 1)
  have hcolon : ∀ more, skipSpace next (':' :: more) = (next, ':' :: more) := fun _ => rfl
  refine ⟨next + 1 + 1, ?_⟩
  rw [memberText_append, readMembers, hkey]
  rw [List.singleton_append] at hskip
  simp only [bind, Except.bind, hcolon, hskip, String.ofList_toList]
  rfl

/-- The members of an object, from one of them on. -/
theorem readMembers_behind {layout : Layout} {level : Nat} {member : String × Json}
    {members : List (String × Json)}
    (hread : ∀ m ∈ member :: members, IsRead layout (level + 1) m.2)
    (hreal : ∀ m ∈ member :: members, m.2.NotReal) (offset : Nat) (rest : List Char)
    {fuel : Nat} (hfuel : 2 * (memberText layout (level + 1) member ++
      layout.behind level '\x7d' rest
        (members.map (memberText layout (level + 1)))).length < fuel) :
    ReadsBack
      (readMembers fuel offset (memberText layout (level + 1) member ++
        layout.behind level '\x7d' rest (members.map (memberText layout (level + 1)))))
      (member :: members) rest := by
  induction members generalizing member fuel offset with
  | nil =>
    obtain ⟨fuel, rfl⟩ : ∃ more, fuel = more + 1 := ⟨fuel - 1, by omega⟩
    obtain ⟨next, hstep⟩ := readMembers_memberText (hreal member List.mem_cons_self) fuel offset
      (layout.behind level '\x7d' rest [])
    have hshorter := length_renderAt_le_memberText layout (level + 1) member
      (layout.behind level '\x7d' rest [])
    have hvalue := hread member List.mem_cons_self fuel next _
      (ends_behind layout level '\x7d' rfl rest []) (by rw [List.map_nil] at hfuel; omega)
    have hclose : isSpace '\x7d' = false := rfl
    rw [List.map_nil, hstep]
    refine hvalue.bind fun offset => ?_
    simp only [afterValue, skipSpace_closing layout level offset hclose rest]
    exact ⟨_, rfl⟩
  | cons other members ih =>
    obtain ⟨fuel, rfl⟩ : ∃ more, fuel = more + 1 := ⟨fuel - 1, by omega⟩
    rw [List.forall_mem_cons] at hread hreal
    obtain ⟨next, hstep⟩ := readMembers_memberText hreal.1 fuel offset
      (layout.behind level '\x7d' rest ((other :: members).map (memberText layout (level + 1))))
    have hshorter := length_renderAt_le_memberText layout (level + 1) member
      (layout.behind level '\x7d' rest ((other :: members).map (memberText layout (level + 1))))
    have hvalue := hread.1 fuel next _ (ends_behind layout level '\x7d' rfl rest
      ((other :: members).map (memberText layout (level + 1)))) (by omega)
    rw [hstep]
    refine hvalue.bind fun offset => ?_
    have hbegins : Begins (memberText layout (level + 1) other ++
        layout.behind level '\x7d' rest (members.map (memberText layout (level + 1)))) :=
      ⟨'"', _, memberText_append .., by decide⟩
    have hskip := hbegins.skipSpace (gap_blank layout (level + 1)) (offset + 1)
    simp only [afterValue, List.map_cons, Layout.behind, skipSpace_comma, hskip]
    refine (ih hread.2 hreal.2 _ ?_).bind fun last => ⟨last, rfl⟩
    simp only [Layout.behind, List.map_cons, List.length_append, List.length_cons] at hfuel ⊢
    omega

theorem readValue_array (fuel offset : Nat) {gap text : List Char}
    (hgap : ∀ c ∈ gap, isSpace c = true) (h : Begins text) :
    readValue (fuel + 1) offset ('[' :: (gap ++ text)) =
      readItems fuel (offset + 1 + gap.length) text >>= fun (items, next) =>
        return (.arr items, next) := by
  obtain ⟨c, more, rfl, hc, hne, -⟩ := h
  rw [readValue, skipSpace_append _ hgap hc]
  split
  next hclose => exact absurd (List.cons.inj (Prod.mk.inj hclose).2).1 hne
  next heq =>
    cases heq
    rfl

theorem readValue_object (fuel offset : Nat) {gap : List Char}
    (hgap : ∀ c ∈ gap, isSpace c = true) (more : List Char) :
    readValue (fuel + 1) offset ('\x7b' :: (gap ++ '"' :: more)) =
      readMembers fuel (offset + 1 + gap.length) ('"' :: more) >>= fun (members, next) =>
        return (ofMembers members, next) := by
  rw [readValue, skipSpace_append _ hgap rfl]
  rfl

theorem foldl_setMember {done members : List (String × Json)}
    (h : ((done ++ members).map (·.1)).Nodup) :
    members.foldl (fun done m => setMember done m.1 m.2) done = done ++ members := by
  induction members generalizing done with
  | nil => simp
  | cons member members ih =>
    have hnew : done.any (·.1 == member.1) = false := by
      rw [List.map_append, List.map_cons, List.nodup_append] at h
      rw [List.any_eq_false]
      intro other ho heq
      exact h.2.2 other.1 (List.mem_map_of_mem ho) member.1 List.mem_cons_self (eq_of_beq heq)
    have hset : setMember done member.1 member.2 = done ++ [member] := by simp [setMember, hnew]
    rw [List.append_cons] at h ⊢
    rw [List.foldl_cons, hset, ih h]

theorem ofMembers_eq {members : List (String × Json)} (h : (members.map (·.1)).Nodup) :
    ofMembers members = .obj members := by
  have hnone : (([] ++ members : List (String × Json)).map (·.1)).Nodup := h
  rw [ofMembers, foldl_setMember hnone, List.nil_append]

theorem nodup_of_increasing {members : List (String × Json)} (h : Increasing (.obj members)) :
    (members.map (·.1)).Nodup := by
  refine List.pairwise_map.mpr (h.imp ?_)
  intro first second hlt heq
  rw [heq] at hlt
  exact String.lt_irrefl _ hlt

theorem Begins.fuel {text rest : List Char} (h : Begins text) {fuel : Nat}
    (hfuel : 2 * (text ++ rest).length ≤ fuel) : ∃ more, fuel = more + 1 := by
  obtain ⟨c, more, rfl, -⟩ := h
  rw [List.cons_append, List.length_cons] at hfuel
  exact ⟨fuel - 1, by omega⟩

theorem isRead_str (layout : Layout) (level : Nat) (text : String) :
    IsRead layout level (.str text) := by
  intro fuel offset rest _ hfuel
  have hbegins : Begins (renderAt layout level (.str text)) := begins_renderAt layout level trivial
  obtain ⟨fuel, rfl⟩ := hbegins.fuel hfuel
  obtain ⟨next, hstring⟩ := readString_written offset (offset + 1) text.toList rest
  refine ⟨next, ?_⟩
  rw [renderAt, renderString, List.append_assoc, List.cons_append, List.singleton_append,
    readValue, hstring]
  exact congrArg (fun text => Except.ok (Json.str text, next, rest)) String.ofList_toList

theorem isRead_int (layout : Layout) (level : Nat) (n : Int) : IsRead layout level (.int n) := by
  intro fuel offset rest hends hfuel
  have hbegins : Begins (renderAt layout level (.int n)) := begins_renderAt layout level trivial
  obtain ⟨fuel, rfl⟩ := hbegins.fuel hfuel
  exact readValue_decimal fuel offset n hends

theorem isRead_arr {layout : Layout} {level : Nat} {items : List Json}
    (hin : ∀ item ∈ items, IsRead layout (level + 1) item)
    (hreal : ∀ item ∈ items, item.NotReal) : IsRead layout level (.arr items) := by
  intro fuel offset rest hends hfuel
  have hbegins : Begins (renderAt layout level (.arr items)) := begins_renderAt layout level trivial
  obtain ⟨fuel, rfl⟩ := hbegins.fuel hfuel
  cases items with
  | nil => exact ⟨_, rfl⟩
  | cons item items =>
    rw [List.forall_mem_cons] at hreal
    rw [renderAt_arr, List.map_cons, enclose_cons] at hfuel ⊢
    rw [readValue_array fuel offset (lineStart_blank layout (level + 1))
      ((begins_renderAt layout (level + 1) hreal.1).append _)]
    rw [List.length_cons, List.length_append] at hfuel
    have hitems := readItems_behind hin hreal.2
      (offset + 1 + (layout.lineStart (level + 1)).length) rest (show _ < fuel by omega)
    exact hitems.bind fun next => ⟨next, rfl⟩

theorem isRead_obj {layout : Layout} {level : Nat} {members : List (String × Json)}
    (hinc : Increasing (.obj members)) (hin : ∀ m ∈ members, IsRead layout (level + 1) m.2)
    (hreal : ∀ m ∈ members, m.2.NotReal) : IsRead layout level (.obj members) := by
  intro fuel offset rest hends hfuel
  have hbegins : Begins (renderAt layout level (.obj members)) :=
    begins_renderAt layout level trivial
  obtain ⟨fuel, rfl⟩ := hbegins.fuel hfuel
  rw [renderAt_obj, sortByKey_of_increasing hinc] at hfuel ⊢
  cases members with
  | nil => exact ⟨_, rfl⟩
  | cons member members =>
    rw [List.map_cons, enclose_cons] at hfuel ⊢
    rw [List.length_cons, List.length_append] at hfuel
    have hmembers := readMembers_behind hin hreal
      (offset + 1 + (layout.lineStart (level + 1)).length) rest (show _ < fuel by omega)
    rw [memberText_append] at hmembers ⊢
    rw [readValue_object fuel offset (lineStart_blank layout (level + 1))]
    have hobject := ofMembers_eq (nodup_of_increasing hinc)
    refine hmembers.bind fun next => ⟨next, ?_⟩
    exact congrArg (fun value => Except.ok (value, next, rest)) hobject

/-- A value with its members in order is read back from its text. -/
theorem isRead {value : Json} (hreal : value.Everywhere NotReal)
    (hinc : value.Everywhere Increasing) (layout : Layout) (level : Nat) :
    IsRead layout level value := by
  induction value using inside_out generalizing level with
  | step value ih =>
    have hin : ∀ child ∈ value.children, IsRead layout (level + 1) child :=
      fun child hc => ih child hc (hreal.child hc) (hinc.child hc) (level + 1)
    have hchild : ∀ child ∈ value.children, child.NotReal := fun child hc => (hreal.child hc).self
    cases value with
    | arr items => exact isRead_arr hin hchild
    | obj members =>
      rw [children, List.forall_mem_map] at hin hchild
      exact isRead_obj hinc.self hin hchild
    | real x => exact hreal.self.elim
    | str text => exact isRead_str layout level text
    | int n => exact isRead_int layout level n
    | null =>
      intro fuel offset rest _ hfuel
      obtain ⟨fuel, rfl⟩ := (begins_renderAt layout level hreal.self).fuel hfuel
      exact ⟨_, rfl⟩
    | bool b =>
      intro fuel offset rest _ hfuel
      obtain ⟨fuel, rfl⟩ := (begins_renderAt layout level hreal.self).fuel hfuel
      cases b with
      | true => exact ⟨_, rfl⟩
      | false => exact ⟨_, rfl⟩

/-- Reading the canonical document of a value gives the value with its members in order. -/
theorem read_document {value : Json} (hkeys : value.Everywhere DistinctKeys)
    (hreal : value.Everywhere NotReal) (layout : Layout) :
    read (value.document layout).toList = .ok value.inOrder := by
  have hreal' : value.inOrder.Everywhere NotReal :=
    (everywhere_inOrder_iff notReal_inOrder).mpr hreal
  have htext : (value.document layout).toList = renderAt layout 0 value.inOrder ++ ['\n'] := by
    rw [renderAt_inOrder hkeys, document, render, String.toList_ofList]
  have hbegins := (begins_renderAt layout 0 hreal'.self).append ['\n']
  have hskip := hbegins.skipSpace (show ∀ c ∈ [], isSpace c = true by simp) 0
  have hmark : ((renderAt layout 0 value.inOrder ++ ['\n']).head? == some '\uFEFF') = false := by
    obtain ⟨c, more, hc, -, -, hne⟩ := hbegins
    simpa [hc] using hne
  obtain ⟨next, hvalue⟩ := isRead hreal' (everywhere_increasing_inOrder hkeys) layout 0
    (2 * (renderAt layout 0 value.inOrder ++ ['\n']).length + 2) 0 ['\n'] rfl (by omega)
  rw [List.nil_append] at hskip
  rw [htext]
  simp only [read, hmark, hskip, List.length_nil, Nat.add_zero, hvalue]
  rfl

end JavaLint.Json
