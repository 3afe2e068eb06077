import Logix.Js.Capitals
import Logix.Js.Groups
import Logix.Spec.Regex

/-!
# Validation and sanitizing

`ValidationUtils` checks the bodies of requests against a schema, and strips tags off texts.

* `ZodIssue`, `addIssue`, `validate`: the messages of a failed check, path by path;
* **`validate_spec`**: each path has all of its messages, in order, but for a path that is the name
  of an inherited member, which ends in a `TypeError`;
* `tagRegex`, `sanitizeString`: the code, with its expression;
* **`sanitizeString_spec`**: what is outside of the tags is left, and there is none in it.
-/

namespace Logix

theorem trim_trim (s : JsString) : trim (trim s) = trim s := by
  have hfront : (trim s).dropWhile isWhiteSpace = trim s := by
    rw [List.dropWhile_eq_self_iff]
    intro hpos
    -- the first unit is the first one behind the white space in front
    have hstart : trim s <+: s.dropWhile isWhiteSpace := List.rdropWhile_prefix _ _
    have hpos' : 0 < (s.dropWhile isWhiteSpace).length := hpos.trans_le hstart.length_le
    rw [hstart.getElem hpos]
    exact List.dropWhile_get_zero_not isWhiteSpace s hpos'
  calc trim (trim s)
      = ((trim s).dropWhile isWhiteSpace).rdropWhile isWhiteSpace := rfl
    _ = (trim s).rdropWhile isWhiteSpace := by rw [hfront]
    _ = trim s := List.rdropWhile_idempotent _ _

theorem trim_sublist (s : JsString) : (trim s).Sublist s :=
  (List.rdropWhile_prefix _ _).sublist.trans (List.dropWhile_suffix _).sublist

namespace Common.ValidationUtils

open Spec Spec.Regex

/-! ## Validation -/

/-- A key of an object or an index of an array. -/
inductive PathKey where
  | name (s : JsString)
  | index (n : ℕ)
  deriving DecidableEq, Repr

/-- The text of a key. -/
def PathKey.text : PathKey → JsString
  | name s => s
  | index n => toBase 10 n

/-- An issue of a failed check. -/
structure ZodIssue where
  path : List PathKey
  message : JsString
  deriving DecidableEq, Repr

/-- `issue.path.join('.') || 'root'`. -/
def ZodIssue.pathText (issue : ZodIssue) : JsString :=
  let path := (js ".").intercalate (issue.path.map PathKey.text)
  if path = [] then js "root" else path

/-- The members that an empty object literal inherits. -/
def inheritedMembers : List JsString :=
  [js "constructor", js "__defineGetter__", js "__defineSetter__", js "hasOwnProperty",
    js "__lookupGetter__", js "__lookupSetter__", js "isPrototypeOf", js "propertyIsEnumerable",
    js "toString", js "valueOf", js "__proto__", js "toLocaleString"]

/-- `ValidationError`, with its message and the messages of each path. -/
structure ValidationError where
  message : JsString
  validationErrors : JsMap JsString (List JsString)

/-- What `validate` throws. -/
inductive Thrown where
  | validation (error : ValidationError)
  | typeError

/-- A round of the loop. An inherited member counts as an entry, and has no `push`. -/
def addIssue (fieldErrors : JsMap JsString (List JsString)) (issue : ZodIssue) :
    Option (JsMap JsString (List JsString)) :=
  if !fieldErrors.has issue.pathText && inheritedMembers.contains issue.pathText then none
  else some (addToGroup ZodIssue.pathText [] (fun messages issue => messages ++ [issue.message])
    fieldErrors issue)

variable {D T : Type}

/-- **`validate(schema, data)`**, where `safeParse` is the one of the schema. -/
def validate (safeParse : D → Except (List ZodIssue) T) (data : D) : Except Thrown T :=
  match safeParse data with
  | .ok value => .ok value
  | .error issues =>
    match issues.foldlM addIssue .empty with
    | some fieldErrors =>
      .error (.validation ⟨js "Input validation failed against schema rules.", fieldErrors⟩)
    | none => .error .typeError

/-- The messages of a path. -/
def messagesAt (issues : List ZodIssue) (path : JsString) : List JsString :=
  (issues.filter fun issue => issue.pathText = path).map ZodIssue.message

theorem foldlM_addIssue (issues : List ZodIssue) :
    issues.foldlM addIssue .empty =
      if ∃ issue ∈ issues, issue.pathText ∈ inheritedMembers then none
      else some (groupInto ZodIssue.pathText [] (fun messages issue => messages ++ [issue.message])
        issues) := by
  induction issues using List.reverseRecOn with
  | nil => rfl
  | append_singleton issues issue ih =>
    rw [List.foldlM_append, ih]
    by_cases hbefore : ∃ issue ∈ issues, issue.pathText ∈ inheritedMembers
    · obtain ⟨i, hi, hmem⟩ := hbefore
      rw [if_pos ⟨i, hi, hmem⟩, if_pos ⟨i, List.mem_append_left _ hi, hmem⟩]
      rfl
    · have hnew : (∃ i ∈ issues ++ [issue], i.pathText ∈ inheritedMembers) ↔
          issue.pathText ∈ inheritedMembers := by
        constructor
        · rintro ⟨i, hi, hmem⟩
          rcases List.mem_append.mp hi with hi | hi
          · exact absurd ⟨i, hi, hmem⟩ hbefore
          · exact List.mem_singleton.mp hi ▸ hmem
        · exact fun hmem => ⟨issue, by simp, hmem⟩
      rw [if_neg hbefore, Option.bind_eq_bind, Option.bind_some, List.foldlM_cons, addIssue]
      by_cases hmem : issue.pathText ∈ inheritedMembers
      · have hfresh : (groupInto ZodIssue.pathText []
            (fun messages issue => messages ++ [issue.message]) issues).has issue.pathText =
            false := by
          rw [JsMap.has, keys_groupInto, decide_eq_false_iff_not, mem_distinct, List.mem_map]
          rintro ⟨i, hi, hpath⟩
          exact hbefore ⟨i, hi, hpath ▸ hmem⟩
        rw [hfresh, List.contains_iff_mem.mpr hmem, if_pos (hnew.mpr hmem)]
        rfl
      · have hother : inheritedMembers.contains issue.pathText = false := by
          rwa [← Bool.not_eq_true, List.contains_iff_mem]
        rw [hother, Bool.and_false, if_neg Bool.false_ne_true, if_neg (mt hnew.mp hmem),
          groupInto_concat]
        rfl

theorem groupOf_messages (issues : List ZodIssue) (path : JsString) :
    groupOf ZodIssue.pathText [] (fun messages issue => messages ++ [issue.message]) issues path =
      messagesAt issues path := by
  induction issues using List.reverseRecOn with
  | nil => rfl
  | append_singleton issues issue ih =>
    rw [groupOf_concat, ih, messagesAt, messagesAt, List.filter_append, List.map_append]
    by_cases h : issue.pathText = path <;> simp [h]

/-- **What a check answers.** -/
theorem validate_spec (safeParse : D → Except (List ZodIssue) T) (data : D) :
    match safeParse data with
    | .ok value => validate safeParse data = .ok value
    | .error issues =>
      if ∃ issue ∈ issues, issue.pathText ∈ inheritedMembers then
        validate safeParse data = .error .typeError
      else ∃ fieldErrors, validate safeParse data = .error (.validation fieldErrors) ∧
        ∀ path, fieldErrors.validationErrors.get path =
          if messagesAt issues path = [] then none else some (messagesAt issues path) := by
  unfold validate
  cases safeParse data with
  | ok value => rfl
  | error issues =>
    simp only [foldlM_addIssue]
    split_ifs with h
    · rfl
    · refine ⟨_, rfl, fun path => ?_⟩
      have hnil : messagesAt issues path = [] ↔ path ∉ issues.map ZodIssue.pathText := by
        simp [messagesAt, List.filter_eq_nil_iff]
      split_ifs with hpath
      · rw [JsMap.get_eq_none_iff, keys_groupInto, mem_distinct]
        exact hnil.mp hpath
      · rw [get_groupInto (not_not.mp (mt hnil.mpr hpath)), groupOf_messages]

/-! ## Sanitizing -/

/-- `/<[^>]*>?/`, for texts of at most `most` units. -/
def tagRegex (most : ℕ) : Regex UInt16 := bracketed (· == 60) (· == 62) most

/-- **`sanitizeString(input)`.** -/
def sanitizeString (input : JsString) : JsString :=
  trim (removeAll (tagRegex input.length) input)

/-- The text outside of the tags: from each `<` up to the next `>`, or to the end. -/
def outsideTags (input : JsString) : JsString := outside (· == 60) (· == 62) false input

theorem sanitizeString_eq (input : JsString) : sanitizeString input = trim (outsideTags input) :=
  congrArg trim (removeAll_bracketed le_rfl)

theorem not_mem_sanitizeString (input : JsString) : 60 ∉ sanitizeString input := by
  intro h
  rw [sanitizeString_eq] at h
  exact absurd (not_isOpen_of_mem_outside ((trim_sublist _).subset h)) (by decide)

theorem sanitizeString_of_not_mem {input : JsString} (h : 60 ∉ input) :
    sanitizeString input = trim input := by
  rw [sanitizeString_eq, outsideTags, outside_of_not_isOpen]
  rintro x hx
  exact beq_eq_false_iff_ne.mpr fun hlt => h (hlt ▸ hx)

/-- **What is left of a text.** -/
theorem sanitizeString_spec (input : JsString) :
    sanitizeString input = trim (outsideTags input) ∧ 60 ∉ sanitizeString input ∧
      (sanitizeString input).Sublist input ∧
      sanitizeString (sanitizeString input) = sanitizeString input ∧
      (60 ∉ input → sanitizeString input = trim input) ∧
      ∀ a b, input = a ++ 60 :: b → 62 ∉ b → sanitizeString input = sanitizeString a := by
  refine ⟨sanitizeString_eq input, not_mem_sanitizeString input, ?_, ?_,
    sanitizeString_of_not_mem, ?_⟩
  · rw [sanitizeString_eq]
    exact (trim_sublist _).trans (outside_sublist false input)
  · rw [sanitizeString_of_not_mem (not_mem_sanitizeString input), sanitizeString_eq, trim_trim]
  · rintro a b rfl hb
    rw [sanitizeString_eq, sanitizeString_eq, outsideTags, outsideTags,
      outside_append_unclosed (by decide) (by decide)]
    exact fun y hy => beq_eq_false_iff_ne.mpr fun hgt => hb (hgt ▸ hy)

/-- A less-than sign at the end, and a tag before it. -/
theorem sanitizeString_spec_unclosed :
    sanitizeString (js "<b>1</b> <2") = sanitizeString (js "<b>1</b> ") :=
  (sanitizeString_spec (js "<b>1</b> <2")).2.2.2.2.2 (js "<b>1</b> ") (js "2") (by decide)
    (by decide)

example : sanitizeString (js " 1 < 2 and 3 > 2 <b>!</b") = js "1  2 !" := by decide

end Common.ValidationUtils

end Logix
