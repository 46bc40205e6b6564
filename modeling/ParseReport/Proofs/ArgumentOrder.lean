import Mathlib.Data.List.Induction
import Mathlib.Data.Nat.Digits.Defs
import ParseReport.Proofs.Arguments

/-!
# Arguments in any order

Which command lines are in order, and what they set, is said here without reading them from left to
right: there is one path, every option is a setting in order, and of the settings of one kind the
last one counts. Where the arguments stand matters for nothing else, but for which of several
arguments that offend is blamed.
-/

namespace ParseReport

namespace Text
variable {t : Text} {n : Nat}

/-- The value of a decimal digit. -/
def digitValue (c : Char) : Nat := c.toNat - '0'.toNat

/-- The text is the number in decimal: digits, at least one of them, which may begin with zeros and
may have one `+` before them. -/
def Spells (t : Text) (n : Nat) : Prop :=
  ∃ digits, (t = digits ∨ t = '+' :: digits) ∧ digits ≠ [] ∧ (∀ c ∈ digits, c.isDigit = true) ∧
    Nat.ofDigits 10 (digits.reverse.map digitValue) = n

theorem digitsValue_eq_ofDigits (digits : Text) :
    digitsValue digits = Nat.ofDigits 10 (digits.reverse.map digitValue) := by
  induction digits using List.reverseRecOn with
  | nil => rfl
  | append_singleton digits c ih =>
      rw [List.reverse_concat, List.map_cons, Nat.ofDigits_cons, ← ih, digitsValue,
        List.foldl_concat, ← digitsValue, Nat.mul_comm, Nat.add_comm]
      rfl

theorem unsigned_cases (t : Text) : t = unsigned t ∨ t = '+' :: unsigned t := by
  unfold unsigned
  split
  · exact .inr rfl
  · exact .inl rfl

theorem unsigned_of_isDigit (h : ∀ c ∈ t, c.isDigit = true) : unsigned t = t := by
  unfold unsigned
  split
  · exact absurd (h '+' List.mem_cons_self) (by decide)
  · rfl

theorem spells_iff : t.Spells n ↔
    unsigned t ≠ [] ∧ (∀ c ∈ unsigned t, c.isDigit = true) ∧ digitsValue (unsigned t) = n := by
  rw [digitsValue_eq_ofDigits]
  constructor
  · rintro ⟨digits, rfl | rfl, hspelled⟩
    · rwa [unsigned_of_isDigit hspelled.2.1]
    · exact hspelled
  · exact fun hspelled => ⟨unsigned t, unsigned_cases t, hspelled⟩

theorem Spells.unique {m : Nat} (h : t.Spells n) (h' : t.Spells m) : n = m :=
  (spells_iff.mp h).2.2.symm.trans (spells_iff.mp h').2.2

theorem count?_eq_some_iff {bound : Nat} : t.count? bound = some n ↔ t.Spells n ∧ n < bound := by
  simp only [count?, Option.ite_none_right_eq_some, Option.some_inj, List.all_eq_true, spells_iff]
  constructor
  · rintro ⟨⟨hsome, hdigits, hbound⟩, rfl⟩
    exact ⟨⟨hsome, hdigits, rfl⟩, hbound⟩
  · rintro ⟨⟨hsome, hdigits, rfl⟩, hbound⟩
    exact ⟨⟨hsome, hdigits, hbound⟩, rfl⟩

end Text

/-- The name of a colour mode. -/
def ColorMode.name : ColorMode → Text
  | auto => "auto".toList
  | always => "always".toList
  | never => "never".toList

namespace Options
variable {arguments : List Text}

section Values
variable {value : Text}

/-- A limit in order: a number from 1 to the largest of 64 bits. -/
def IsLimit (value : Text) : Prop := ∃ n, value.Spells n ∧ 1 ≤ n ∧ n < 2 ^ 64

theorem spells_of_limit? {limit : UInt64} (h : limit? value = some limit) :
    value.Spells limit.toNat := by
  obtain ⟨n, hcount, -, rfl⟩ := limit?_eq_some_iff.mp h
  obtain ⟨hspells, hbound⟩ := Text.count?_eq_some_iff.mp hcount
  rwa [UInt64.toNat_ofNat_of_lt' hbound]

theorem exists_limit?_iff : (∃ limit, limit? value = some limit) ↔ IsLimit value := by
  constructor
  · rintro ⟨limit, h⟩
    refine ⟨limit.toNat, spells_of_limit? h, ?_, limit.toNat_lt⟩
    exact Nat.pos_of_ne_zero fun hzero => limit?_ne_zero h (UInt64.toNat_inj.mp hzero)
  · rintro ⟨n, hspells, hpositive, hbound⟩
    have hcount : value.count? (maxCount + 1) = some n :=
      Text.count?_eq_some_iff.mpr ⟨hspells, hbound⟩
    exact ⟨n.toUInt64, limit?_eq_some_iff.mpr ⟨n, hcount, Nat.ne_of_gt hpositive, rfl⟩⟩

theorem color?_eq_some_iff {color : ColorMode} :
    color? value = some color ↔ value = color.name := by
  constructor
  · intro h
    unfold color? at h
    split at h
    · cases h
      assumption
    · split at h
      · cases h
        assumption
      · split at h
        · cases h
          assumption
        · cases h
  · rintro rfl
    cases color <;> rfl

end Values

section Forms

/-- An option that is in order. -/
inductive IsSetting : Text → Prop
  | limit {value : Text} : IsLimit value → IsSetting ("--limit=".toList ++ value)
  | color (mode : ColorMode) : IsSetting ("--color=".toList ++ mode.name)

/-- An argument that is not in order after those before it, and what is wrong with it. -/
inductive Offends (before : List Text) : Text → OptionsError → Prop
  | limit {value : Text} :
    ¬IsLimit value → Offends before ("--limit=".toList ++ value) (.invalidLimit value)
  | color {value : Text} :
    (∀ mode : ColorMode, value ≠ mode.name) →
      Offends before ("--color=".toList ++ value) (.invalidColor value)
  | unknown {argument : Text} :
    argument.head? = some '-' → ¬"--limit=".toList <+: argument →
      ¬"--color=".toList <+: argument → Offends before argument (.unknownOption argument)
  | surplus {argument : Text} :
    argument.head? ≠ some '-' → positional before ≠ [] →
      Offends before argument (.unexpectedArgument argument)

theorem not_prefix_of_head {name argument : Text} (hname : name.head? = some '-')
    (h : argument.head? ≠ some '-') : ¬name <+: argument := by
  rintro ⟨value, rfl⟩
  apply h
  rw [List.head?_append, hname]
  rfl

theorem isPrefixOf?_eq_none {name argument : Text} (h : ¬name <+: argument) :
    name.isPrefixOf? argument = none := by
  rw [Option.eq_none_iff_forall_ne_some]
  intro value hvalue
  exact h ⟨value, List.isPrefixOf?_eq_some_iff_append_eq.mp hvalue⟩

variable {d : Draft} {argument : Text}

theorem take_limit (d : Draft) (value : Text) :
    d.take ("--limit=".toList ++ value) =
      match limit? value with
      | some limit => .ok { d with limit }
      | none => .error (.invalidLimit value) :=
  rfl

theorem take_color (d : Draft) (value : Text) :
    d.take ("--color=".toList ++ value) =
      match color? value with
      | some color => .ok { d with color }
      | none => .error (.invalidColor value) :=
  rfl

theorem take_of_neither (hlimit : ¬"--limit=".toList <+: argument)
    (hcolor : ¬"--color=".toList <+: argument) :
    d.take argument =
      if argument.head? = some '-' then .error (.unknownOption argument)
      else
        match d.path with
        | none => .ok { d with path := some argument }
        | some _ => .error (.unexpectedArgument argument) := by
  rw [Draft.take, Argument.ofText, isPrefixOf?_eq_none hlimit, isPrefixOf?_eq_none hcolor]
  split_ifs <;> rfl

/-- A setting in order is always taken, and a path where none is known. -/
theorem exists_take_iff :
    (∃ d', d.take argument = .ok d') ↔
      IsSetting argument ∨ argument.head? ≠ some '-' ∧ d.path = none := by
  constructor
  · rintro ⟨d', htake⟩
    cases Draft.takes_of_take htake with
    | limit hvalue => exact .inl (.limit (exists_limit?_iff.mp ⟨_, hvalue⟩))
    | color hvalue =>
        obtain rfl := color?_eq_some_iff.mp hvalue
        exact .inl (.color _)
    | path hhead hnone => exact .inr ⟨hhead, hnone⟩
  · rintro (hsetting | ⟨hhead, hnone⟩)
    · cases hsetting with
      | limit hvalue =>
          obtain ⟨limit, hlimit⟩ := exists_limit?_iff.mpr hvalue
          rw [take_limit, hlimit]
          exact ⟨_, rfl⟩
      | color mode =>
          rw [take_color, color?_eq_some_iff.mpr rfl]
          exact ⟨_, rfl⟩
    · rw [take_of_neither (not_prefix_of_head rfl hhead) (not_prefix_of_head rfl hhead),
        if_neg hhead, hnone]
      exact ⟨_, rfl⟩

section Refusals
variable {value : Text} {error : OptionsError}

theorem take_limit_eq_error_iff :
    d.take ("--limit=".toList ++ value) = .error error ↔
      ¬IsLimit value ∧ error = .invalidLimit value := by
  rw [take_limit, ← exists_limit?_iff]
  cases limit? value with
  | some limit => simp
  | none => simp [eq_comm]

theorem take_color_eq_error_iff :
    d.take ("--color=".toList ++ value) = .error error ↔
      (∀ mode : ColorMode, value ≠ mode.name) ∧ error = .invalidColor value := by
  rw [take_color]
  simp only [ne_eq, ← color?_eq_some_iff]
  cases color? value with
  | some color => simp
  | none => simp [eq_comm]

theorem take_of_neither_eq_error_iff (hlimit : ¬"--limit=".toList <+: argument)
    (hcolor : ¬"--color=".toList <+: argument) :
    d.take argument = .error error ↔
      if argument.head? = some '-' then error = .unknownOption argument
      else d.path ≠ none ∧ error = .unexpectedArgument argument := by
  rw [take_of_neither hlimit hcolor]
  split_ifs with hhead
  · simp [eq_comm]
  · cases d.path with
    | none => simp
    | some path => simp [eq_comm]

/-- An argument is refused exactly if it offends, with what is wrong with it. -/
theorem take_eq_error_iff {before : List Text} (hpath : d.path = none ↔ positional before = []) :
    d.take argument = .error error ↔ Offends before argument error := by
  constructor
  · intro h
    by_cases hlimit : "--limit=".toList <+: argument
    · obtain ⟨value, rfl⟩ := hlimit
      obtain ⟨hvalue, rfl⟩ := take_limit_eq_error_iff.mp h
      exact .limit hvalue
    · by_cases hcolor : "--color=".toList <+: argument
      · obtain ⟨value, rfl⟩ := hcolor
        obtain ⟨hvalue, rfl⟩ := take_color_eq_error_iff.mp h
        exact .color hvalue
      · rw [take_of_neither_eq_error_iff hlimit hcolor] at h
        split_ifs at h with hhead
        · subst h
          exact .unknown hhead hlimit hcolor
        · obtain ⟨hsome, rfl⟩ := h
          exact .surplus hhead (mt hpath.mpr hsome)
  · intro h
    cases h with
    | limit hvalue => exact take_limit_eq_error_iff.mpr ⟨hvalue, rfl⟩
    | color hvalue => exact take_color_eq_error_iff.mpr ⟨hvalue, rfl⟩
    | unknown hhead hlimit hcolor =>
        rw [take_of_neither_eq_error_iff hlimit hcolor, if_pos hhead]
    | surplus hhead hsome =>
        rw [take_of_neither_eq_error_iff (not_prefix_of_head rfl hhead)
          (not_prefix_of_head rfl hhead), if_neg hhead]
        exact ⟨mt hpath.mp hsome, rfl⟩

end Refusals

end Forms

section Runs

/-- No argument offends. -/
def InOrder (arguments : List Text) : Prop :=
  ∀ before argument later error, arguments = before ++ argument :: later →
    ¬Offends before argument error

theorem path_eq_none_iff {d : Draft} (h : arguments.foldlM Draft.take {} = .ok d) :
    d.path = none ↔ positional arguments = [] := by
  have hpath : d.path.toList = positional arguments := (foldlM_take h).1
  rw [← hpath, Option.toList_eq_nil_iff]

/-- What fails the reading of the arguments is the first of them that offends. -/
theorem foldlM_take_eq_error_iff {error : OptionsError} :
    arguments.foldlM Draft.take {} = .error error ↔ ∃ before argument later,
      arguments = before ++ argument :: later ∧ (∃ d, before.foldlM Draft.take {} = .ok d) ∧
        Offends before argument error := by
  rw [foldlM_eq_error_iff]
  constructor
  · rintro ⟨before, argument, later, d, hsplit, hbefore, htake⟩
    exact ⟨before, argument, later, hsplit, ⟨d, hbefore⟩,
      (take_eq_error_iff (path_eq_none_iff hbefore)).mp htake⟩
  · rintro ⟨before, argument, later, hsplit, ⟨d, hbefore⟩, hoffends⟩
    exact ⟨before, argument, later, d, hsplit, hbefore,
      (take_eq_error_iff (path_eq_none_iff hbefore)).mpr hoffends⟩

theorem exists_foldlM_take_iff_inOrder :
    (∃ d, arguments.foldlM Draft.take {} = .ok d) ↔ InOrder arguments := by
  constructor
  · rintro ⟨d, hd⟩ before argument later error rfl hoffends
    rw [List.foldlM_append] at hd
    obtain ⟨d', hbefore, -⟩ := bind_eq_ok_iff.mp hd
    have hfails : (before ++ argument :: later).foldlM Draft.take {} = .error error :=
      foldlM_take_eq_error_iff.mpr ⟨before, argument, later, rfl, ⟨d', hbefore⟩, hoffends⟩
    rw [List.foldlM_append] at hfails
    cases hd.symm.trans hfails
  · intro hnone
    cases hfold : arguments.foldlM Draft.take {} with
    | ok d => exact ⟨d, rfl⟩
    | error error =>
        obtain ⟨before, argument, later, hsplit, -, hoffends⟩ :=
          foldlM_take_eq_error_iff.mp hfold
        exact absurd hoffends (hnone before argument later error hsplit)

theorem positional_concat (arguments : List Text) (argument : Text) :
    positional (arguments ++ [argument]) =
      positional arguments ++ if argument.head? = some '-' then [] else [argument] := by
  rw [positional, List.filter_append]
  by_cases hhead : argument.head? = some '-' <;> simp [positional, hhead]

theorem IsSetting.head?_eq {argument : Text} (h : IsSetting argument) :
    argument.head? = some '-' := by
  cases h <;> rfl

/-- Of what stands before an argument it matters only whether there is a path. -/
theorem inOrder_concat (arguments : List Text) (argument : Text) :
    InOrder (arguments ++ [argument]) ↔ InOrder arguments ∧
      if argument.head? = some '-' then IsSetting argument else positional arguments = [] := by
  have hlast : InOrder (arguments ++ [argument]) ↔
      ∃ d, arguments.foldlM Draft.take {} = .ok d ∧ ∃ d', d.take argument = .ok d' := by
    simp only [← exists_foldlM_take_iff_inOrder, List.foldlM_append, bind_eq_ok_iff,
      List.foldlM_cons, List.foldlM_nil, bind_pure]
    exact ⟨fun ⟨d', d, h⟩ => ⟨d, h.1, d', h.2⟩, fun ⟨d, h, d', h'⟩ => ⟨d', d, h, h'⟩⟩
  rw [hlast, ← exists_foldlM_take_iff_inOrder]
  by_cases hhead : argument.head? = some '-'
  · simp only [exists_take_iff, hhead, ne_eq, not_true_eq_false, false_and, or_false, if_true,
      exists_and_right]
  · have hsetting : ¬IsSetting argument := fun h => hhead h.head?_eq
    simp only [exists_take_iff, hsetting, false_or, ne_eq, hhead, not_false_eq_true, true_and,
      if_false]
    constructor
    · rintro ⟨d, hd, hnone⟩
      exact ⟨⟨d, hd⟩, (path_eq_none_iff hd).mp hnone⟩
    · rintro ⟨⟨d, hd⟩, hnone⟩
      exact ⟨d, hd, (path_eq_none_iff hd).mpr hnone⟩

/-- Whether all arguments are in order does not depend on where they stand. -/
theorem inOrder_iff : InOrder arguments ↔
    (∀ argument ∈ arguments, argument.head? = some '-' → IsSetting argument) ∧
      (positional arguments).length ≤ 1 := by
  induction arguments using List.reverseRecOn with
  | nil =>
      refine iff_of_true ?_ ⟨List.forall_mem_nil _, Nat.zero_le 1⟩
      exact exists_foldlM_take_iff_inOrder.mp ⟨{}, rfl⟩
  | append_singleton arguments argument ih =>
      rw [inOrder_concat, ih, positional_concat, List.forall_mem_append, List.forall_mem_singleton]
      by_cases hhead : argument.head? = some '-'
      · simp only [hhead, if_true, List.append_nil, true_imp_iff]
        exact and_right_comm
      · simp only [hhead, if_false, false_imp_iff, and_true, List.length_append,
          List.length_singleton, ← List.length_eq_zero_iff]
        constructor
        · rintro ⟨⟨hall, -⟩, hzero⟩
          exact ⟨hall, by omega⟩
        · rintro ⟨hall, hone⟩
          exact ⟨⟨hall, by omega⟩, by omega⟩

end Runs

section Parsed
variable {options : Options} {error : OptionsError}

/-- What the arguments set: the one path, and of each kind of settings the last one, or the default
where there is none. -/
structure Sets (arguments : List Text) (options : Options) : Prop where
  path : positional arguments = [options.path]
  limit : match (settings "--limit=".toList arguments).getLast? with
    | some value => value.Spells options.limit.toNat
    | none => options.limit = defaultLimit
  color : match (settings "--color=".toList arguments).getLast? with
    | some value => value = options.color.name
    | none => options.color = .auto

/-- What is wrong with a command line: the first argument that offends, or else that no path is
given. -/
inductive Blames : List Text → OptionsError → Prop
  | first {before : List Text} {argument : Text} {error : OptionsError} (later : List Text) :
    InOrder before → Offends before argument error → Blames (before ++ argument :: later) error
  | missing {arguments : List Text} :
    InOrder arguments → positional arguments = [] → Blames arguments .missingPath

theorem getLast?_of_map {α β : Type} {f : α → Option β} {row : List α} {results : List β}
    (h : row.map f = results.map some) :
    row.getLast? = none ∧ results.getLast? = none ∨
      ∃ a b, row.getLast? = some a ∧ results.getLast? = some b ∧ f a = some b := by
  have hlast : row.getLast?.map f = results.getLast?.map some := by
    rw [← List.getLast?_map, h, List.getLast?_map]
  cases hrow : row.getLast? with
  | none =>
      rw [hrow, Option.map_none, eq_comm, Option.map_eq_none_iff] at hlast
      exact .inl ⟨rfl, hlast⟩
  | some a =>
      rw [hrow, Option.map_some, eq_comm, Option.map_eq_some_iff] at hlast
      obtain ⟨b, hb, hvalue⟩ := hlast
      exact .inr ⟨a, b, rfl, hb, hvalue.symm⟩

theorem sets_of_parse (h : parse arguments = .ok options) : Sets arguments options := by
  obtain ⟨-, ⟨limits, hlimits, hlimit⟩, ⟨colors, hcolors, hcolor⟩⟩ :=
    foldlM_take (exists_draft_of_parse h)
  change options.limit = limits.getLastD defaultLimit at hlimit
  change options.color = colors.getLastD .auto at hcolor
  refine ⟨positional_of_parse h, ?_, ?_⟩
  · rw [hlimit, List.getLastD_eq_getLast?]
    rcases getLast?_of_map hlimits with ⟨hnone, hdefault⟩ | ⟨value, limit, hlast, hset, hvalue⟩
    · rw [hnone, hdefault]
      rfl
    · rw [hlast, hset]
      exact spells_of_limit? hvalue
  · rw [hcolor, List.getLastD_eq_getLast?]
    rcases getLast?_of_map hcolors with ⟨hnone, hdefault⟩ | ⟨value, color, hlast, hset, hvalue⟩
    · rw [hnone, hdefault]
      rfl
    · rw [hlast, hset]
      exact color?_eq_some_iff.mp hvalue

/-- The arguments leave no choice of what is set. -/
theorem Sets.unique {options' : Options} (h : Sets arguments options)
    (h' : Sets arguments options') : options = options' := by
  obtain ⟨path, limit, color⟩ := options
  obtain ⟨path', limit', color'⟩ := options'
  obtain ⟨hpath, hlimit, hcolor⟩ := h
  obtain ⟨hpath', hlimit', hcolor'⟩ := h'
  obtain rfl : path = path' := List.singleton_inj.mp (hpath.symm.trans hpath')
  obtain rfl : limit = limit' := by
    cases hlast : (settings "--limit=".toList arguments).getLast? with
    | none =>
        rw [hlast] at hlimit hlimit'
        exact hlimit.trans hlimit'.symm
    | some value =>
        rw [hlast] at hlimit hlimit'
        exact UInt64.toNat_inj.mp (hlimit.unique hlimit')
  obtain rfl : color = color' := by
    cases hlast : (settings "--color=".toList arguments).getLast? with
    | none =>
        rw [hlast] at hcolor hcolor'
        exact hcolor.trans hcolor'.symm
    | some value =>
        rw [hlast] at hcolor hcolor'
        have hread := color?_eq_some_iff.mpr hcolor
        exact Option.some.inj (hread.symm.trans (color?_eq_some_iff.mpr hcolor'))
  rfl

theorem parse_of_foldlM {d : Draft} (h : arguments.foldlM Draft.take {} = .ok d) :
    parse arguments =
      match d.path with
      | some path => .ok ⟨path, d.limit, d.color⟩
      | none => .error .missingPath := by
  rw [parse, h]
  rfl

theorem parse_eq_error_iff : parse arguments = .error error ↔ Blames arguments error := by
  constructor
  · intro h
    cases hfold : arguments.foldlM Draft.take {} with
    | error error' =>
        rw [parse, hfold] at h
        cases h
        obtain ⟨before, argument, later, rfl, hbefore, hoffends⟩ :=
          foldlM_take_eq_error_iff.mp hfold
        exact .first later (exists_foldlM_take_iff_inOrder.mp hbefore) hoffends
    | ok d =>
        have hnone := path_eq_none_iff hfold
        rw [parse_of_foldlM hfold] at h
        cases hpath : d.path with
        | some path =>
            rw [hpath] at h
            cases h
        | none =>
            rw [hpath] at h
            cases h
            exact .missing (exists_foldlM_take_iff_inOrder.mp ⟨d, hfold⟩) (hnone.mp hpath)
  · intro h
    cases h with
    | @first before argument _ later hbefore hoffends =>
        have hfails : (before ++ argument :: later).foldlM Draft.take {} = .error error :=
          foldlM_take_eq_error_iff.mpr ⟨before, argument, later, rfl,
            exists_foldlM_take_iff_inOrder.mpr hbefore, hoffends⟩
        rw [parse, hfails]
        rfl
    | missing horder hnone =>
        obtain ⟨d, hd⟩ := exists_foldlM_take_iff_inOrder.mpr horder
        rw [parse_of_foldlM hd, (path_eq_none_iff hd).mpr hnone]

theorem parse_eq_missingPath_iff :
    parse arguments = .error .missingPath ↔ InOrder arguments ∧ positional arguments = [] := by
  rw [parse_eq_error_iff]
  constructor
  · intro h
    cases h with
    | first later horder hoffends => cases hoffends
    | missing horder hnone => exact ⟨horder, hnone⟩
  · rintro ⟨horder, hnone⟩
    exact .missing horder hnone

theorem exists_parse_iff : (∃ options, parse arguments = .ok options) ↔
    (positional arguments).length = 1 ∧
      ∀ argument ∈ arguments, argument.head? = some '-' → IsSetting argument := by
  constructor
  · rintro ⟨options, h⟩
    have horder := inOrder_iff.mp (exists_foldlM_take_iff_inOrder.mp ⟨_, exists_draft_of_parse h⟩)
    exact ⟨congrArg List.length (positional_of_parse h), horder.1⟩
  · rintro ⟨hone, hsettings⟩
    obtain ⟨d, hd⟩ := exists_foldlM_take_iff_inOrder.mpr
      (inOrder_iff.mpr ⟨hsettings, Nat.le_of_eq hone⟩)
    rw [parse_of_foldlM hd]
    cases hpath : d.path with
    | some path => exact ⟨_, rfl⟩
    | none =>
        rw [(path_eq_none_iff hd).mp hpath] at hone
        cases hone

end Parsed

section Permuted
variable {arguments' : List Text}

theorem exists_parse_of_perm (hperm : arguments'.Perm arguments) :
    (∃ options, parse arguments' = .ok options) ↔ ∃ options, parse arguments = .ok options := by
  have hpositional : (positional arguments').Perm (positional arguments) := hperm.filter _
  simp only [exists_parse_iff, hpositional.length_eq, hperm.mem_iff]

theorem missingPath_of_perm (hperm : arguments'.Perm arguments) :
    parse arguments' = .error .missingPath ↔ parse arguments = .error .missingPath := by
  have hpositional : (positional arguments').Perm (positional arguments) := hperm.filter _
  simp only [parse_eq_missingPath_iff, inOrder_iff, hperm.mem_iff, hpositional.length_eq,
    ← List.length_eq_zero_iff]

/-- Arguments in another order set the same, as long as of each kind the settings follow each other
as before. -/
theorem Sets.of_perm {options : Options} (h : Sets arguments options)
    (hperm : arguments'.Perm arguments)
    (hlimits : settings "--limit=".toList arguments' = settings "--limit=".toList arguments)
    (hcolors : settings "--color=".toList arguments' = settings "--color=".toList arguments) :
    Sets arguments' options := by
  have hpositional : (positional arguments').Perm (positional arguments) := hperm.filter _
  refine ⟨?_, ?_, ?_⟩
  · rw [h.path] at hpositional
    exact List.perm_singleton.mp hpositional
  · rw [hlimits]
    exact h.limit
  · rw [hcolors]
    exact h.color

theorem toOption_parse_of_perm (hperm : arguments'.Perm arguments)
    (hlimits : settings "--limit=".toList arguments' = settings "--limit=".toList arguments)
    (hcolors : settings "--color=".toList arguments' = settings "--color=".toList arguments) :
    (parse arguments').toOption = (parse arguments).toOption := by
  have hiff := exists_parse_of_perm hperm
  cases hparse : parse arguments with
  | error error =>
      cases hparse' : parse arguments' with
      | error error' => rfl
      | ok options' =>
          obtain ⟨options, hok⟩ := hiff.mp ⟨options', hparse'⟩
          cases hparse.symm.trans hok
  | ok options =>
      obtain ⟨options', hparse'⟩ := hiff.mpr ⟨options, hparse⟩
      have hsets := (sets_of_parse hparse).of_perm hperm hlimits hcolors
      rw [hparse', hsets.unique (sets_of_parse hparse')]

end Permuted

/-- A command line is read exactly if one of its arguments is no option and all others are settings
in order; it then sets that path, the last limit and the last colour mode. Otherwise the first
argument that offends is blamed, or that no path is given. The order of the arguments has no part in
whether a command line is read, and none in what is read where of each kind the settings follow each
other as before. It does have a part in which error is given: of several arguments that offend the
first one is blamed, and in another order that may be another one. -/
theorem parse_in_any_order (arguments : List Text) :
    ((∃ options, parse arguments = .ok options) ↔
      (positional arguments).length = 1 ∧
        ∀ argument ∈ arguments, argument.head? = some '-' → IsSetting argument) ∧
    (∀ options, parse arguments = .ok options → Sets arguments options) ∧
    (∀ error, parse arguments = .error error ↔ Blames arguments error) ∧
    ∀ arguments', arguments'.Perm arguments →
      ((∃ options, parse arguments' = .ok options) ↔ ∃ options, parse arguments = .ok options) ∧
      (parse arguments' = .error .missingPath ↔ parse arguments = .error .missingPath) ∧
      (settings "--limit=".toList arguments' = settings "--limit=".toList arguments →
        settings "--color=".toList arguments' = settings "--color=".toList arguments →
          (parse arguments').toOption = (parse arguments).toOption) := by
  refine ⟨exists_parse_iff, fun options => sets_of_parse, fun error => parse_eq_error_iff, ?_⟩
  intro arguments' hperm
  exact ⟨exists_parse_of_perm hperm, missingPath_of_perm hperm, toOption_parse_of_perm hperm⟩

/-- The path goes to the front and the colour mode to the end; the limits stay in order, so that
the second one counts. -/
theorem parse_path_first_and_last :
    let arguments : List Text :=
      ["--color=never".toList, "--limit=+03".toList, "--limit=12".toList, "in".toList]
    let arguments' : List Text :=
      ["in".toList, "--limit=+03".toList, "--limit=12".toList, "--color=never".toList]
    arguments'.Perm arguments ∧
      settings "--limit=".toList arguments' = settings "--limit=".toList arguments ∧
      settings "--color=".toList arguments' = settings "--color=".toList arguments ∧
      parse arguments = .ok ⟨"in".toList, 12, .never⟩ ∧ Sets arguments ⟨"in".toList, 12, .never⟩ ∧
      (parse arguments').toOption = some ⟨"in".toList, 12, .never⟩ := by
  intro arguments arguments'
  have hperm : arguments'.Perm arguments := by decide
  have hparse : parse arguments = .ok ⟨"in".toList, 12, .never⟩ := by decide +kernel
  obtain ⟨-, hsets, -, hpermuted⟩ := parse_in_any_order arguments
  obtain ⟨-, -, hsame⟩ := hpermuted arguments' hperm
  refine ⟨hperm, rfl, rfl, hparse, hsets _ hparse, ?_⟩
  rw [hsame rfl rfl, hparse]
  rfl

end Options

end ParseReport
