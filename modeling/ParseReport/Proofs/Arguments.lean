import Mathlib.Data.List.Basic
import ParseReport.CommandLine.Options
import ParseReport.Proofs.Results

/-!
# What a command line sets

A command line that is in order holds one argument that is no option, which is the path, and
settings that are each in order. The last limit and the last colour mode count, and a limit is
never zero.
-/

namespace ParseReport

theorem Text.lt_of_count? {t : Text} {bound n : Nat} (h : t.count? bound = some n) : n < bound := by
  simp only [count?] at h
  split at h
  · next hdigits =>
      cases h
      exact hdigits.2.2
  · cases h

namespace Options
variable {arguments : List Text}

/-- The arguments that are no options, in order. -/
def positional (arguments : List Text) : List Text := arguments.filter (·.head? ≠ some '-')

/-- The values of the options with a name, in order. -/
def settings (name : Text) (arguments : List Text) : List Text :=
  arguments.filterMap name.isPrefixOf?

theorem positional_cons_of_head {argument : Text} (h : argument.head? ≠ some '-')
    (arguments : List Text) :
    positional (argument :: arguments) = argument :: positional arguments :=
  List.filter_cons_of_pos (decide_eq_true h)

/-- What does not begin like an option sets nothing. -/
theorem settings_cons_of_head {name argument : Text} (hname : name.head? = some '-')
    (h : argument.head? ≠ some '-') (arguments : List Text) :
    settings name (argument :: arguments) = settings name arguments := by
  have hnone : name.isPrefixOf? argument = none := by
    rw [Option.eq_none_iff_forall_ne_some]
    intro value hvalue
    apply h
    rw [← List.isPrefixOf?_eq_some_iff_append_eq.mp hvalue, List.head?_append, hname]
    rfl
  exact List.filterMap_cons_none hnone

section Values
variable {value : Text}

theorem limit?_eq_some_iff {limit : UInt64} :
    limit? value = some limit ↔
      ∃ n, value.count? (maxCount + 1) = some n ∧ n ≠ 0 ∧ n.toUInt64 = limit := by
  unfold limit?
  cases value.count? (maxCount + 1) with
  | none => simp
  | some n => cases n <;> simp

theorem limit?_ne_zero {limit : UInt64} (h : limit? value = some limit) : limit ≠ 0 := by
  rintro rfl
  obtain ⟨n, hcount, hpositive, hzero⟩ := limit?_eq_some_iff.mp h
  have hbound : n < 2 ^ 64 := Text.lt_of_count? hcount
  have hn : n % 2 ^ 64 = 0 := congrArg UInt64.toNat hzero
  omega

theorem color?_eq_always_iff : color? value = some .always ↔ value = "always".toList := by
  constructor
  · intro h
    unfold color? at h
    split at h
    · cases h
    · split at h
      · assumption
      · split at h <;> cases h
  · rintro rfl
    rfl

end Values

section Drafts
variable {d d' : Draft}

/-- The ways in which an argument is taken. -/
inductive Draft.Takes (d : Draft) : Text → Draft → Prop
  | limit {value : Text} {limit : UInt64} :
    limit? value = some limit → Takes d ("--limit=".toList ++ value) { d with limit }
  | color {value : Text} {color : ColorMode} :
    color? value = some color → Takes d ("--color=".toList ++ value) { d with color }
  | path {path : Text} :
    path.head? ≠ some '-' → d.path = none → Takes d path { d with path := some path }

theorem Draft.takes_of_take {argument : Text} (h : d.take argument = .ok d') :
    d.Takes argument d' := by
  unfold take Argument.ofText at h
  cases hlimit : "--limit=".toList.isPrefixOf? argument with
  | some value =>
      rw [← List.isPrefixOf?_eq_some_iff_append_eq.mp hlimit]
      simp only [hlimit] at h
      cases hvalue : limit? value with
      | none =>
          rw [hvalue] at h
          cases h
      | some limit =>
          rw [hvalue] at h
          cases h
          exact .limit hvalue
  | none =>
      cases hcolor : "--color=".toList.isPrefixOf? argument with
      | some value =>
          rw [← List.isPrefixOf?_eq_some_iff_append_eq.mp hcolor]
          simp only [hlimit, hcolor] at h
          cases hvalue : color? value with
          | none =>
              rw [hvalue] at h
              cases h
          | some color =>
              rw [hvalue] at h
              cases h
              exact .color hvalue
      | none =>
          simp only [hlimit, hcolor] at h
          by_cases hhead : argument.head? = some '-'
          · rw [if_pos hhead] at h
            cases h
          · rw [if_neg hhead] at h
            cases hpath : d.path with
            | some path =>
                simp only [hpath] at h
                cases h
            | none =>
                simp only [hpath] at h
                cases h
                exact .path hhead hpath

/-- Taking arguments adds the paths among them and leaves the last settings. -/
theorem foldlM_take (h : arguments.foldlM Draft.take d = .ok d') :
    d'.path.toList = d.path.toList ++ positional arguments ∧
      (∃ limits : List UInt64,
        (settings "--limit=".toList arguments).map limit? = limits.map some ∧
          d'.limit = limits.getLastD d.limit) ∧
      ∃ colors : List ColorMode,
        (settings "--color=".toList arguments).map color? = colors.map some ∧
          d'.color = colors.getLastD d.color := by
  induction arguments generalizing d with
  | nil =>
      cases h
      exact ⟨(List.append_nil _).symm, ⟨[], rfl, rfl⟩, ⟨[], rfl, rfl⟩⟩
  | cons argument arguments ih =>
      rw [List.foldlM_cons] at h
      obtain ⟨next, htake, hrest⟩ := bind_eq_ok_iff.mp h
      obtain ⟨hpath, ⟨limits, hlimits, hlimit⟩, ⟨colors, hcolors, hcolor⟩⟩ := ih hrest
      cases Draft.takes_of_take htake with
      | @limit value limit hvalue =>
          refine ⟨hpath, ⟨limit :: limits, ?_, ?_⟩, ⟨colors, hcolors, hcolor⟩⟩
          · exact congrArg₂ List.cons hvalue hlimits
          · rw [hlimit, List.getLastD_cons]
      | @color value color hvalue =>
          refine ⟨hpath, ⟨limits, hlimits, hlimit⟩, ⟨color :: colors, ?_, ?_⟩⟩
          · exact congrArg₂ List.cons hvalue hcolors
          · rw [hcolor, List.getLastD_cons]
      | path hhead hnone =>
          rw [positional_cons_of_head hhead, settings_cons_of_head rfl hhead,
            settings_cons_of_head rfl hhead, hnone]
          exact ⟨hpath, ⟨limits, hlimits, hlimit⟩, ⟨colors, hcolors, hcolor⟩⟩

end Drafts

section Parsed
variable {options : Options}

theorem exists_draft_of_parse (h : parse arguments = .ok options) :
    arguments.foldlM Draft.take {} = .ok ⟨some options.path, options.limit, options.color⟩ := by
  obtain ⟨⟨path, limit, color⟩, hdraft, hpath⟩ := bind_eq_ok_iff.mp h
  cases path with
  | none => cases hpath
  | some path =>
      cases hpath
      exact hdraft

theorem positional_of_parse (h : parse arguments = .ok options) :
    positional arguments = [options.path] :=
  (foldlM_take (exists_draft_of_parse h)).1.symm

theorem limit_ne_zero_of_parse (h : parse arguments = .ok options) : options.limit ≠ 0 := by
  obtain ⟨-, ⟨limits, hlimits, hlimit⟩, -⟩ := foldlM_take (exists_draft_of_parse h)
  change options.limit = limits.getLastD defaultLimit at hlimit
  rw [hlimit]
  rcases List.mem_cons.mp (List.getLastD_mem_cons (l := limits) (a := defaultLimit)) with
    hdefault | hmem
  · rw [hdefault]
    decide
  · have hset : some (limits.getLastD defaultLimit) ∈
        (settings "--limit=".toList arguments).map limit? := by
      rw [hlimits]
      exact List.mem_map_of_mem hmem
    obtain ⟨value, -, hvalue⟩ := List.mem_map.mp hset
    exact limit?_ne_zero hvalue

/-- Colours are always used exactly if the last option about them says so. -/
theorem color_eq_always_iff_of_parse (h : parse arguments = .ok options) :
    options.color = .always ↔
      (settings "--color=".toList arguments).getLast? = some "always".toList := by
  obtain ⟨-, -, ⟨colors, hcolors, hcolor⟩⟩ := foldlM_take (exists_draft_of_parse h)
  change options.color = colors.getLastD .auto at hcolor
  have hlast : (settings "--color=".toList arguments).getLast?.map color? =
      colors.getLast?.map some := by
    rw [← List.getLast?_map, hcolors, List.getLast?_map]
  rw [hcolor, List.getLastD_eq_getLast?]
  cases hset : (settings "--color=".toList arguments).getLast? with
  | none =>
      rw [hset, Option.map_none, eq_comm, Option.map_eq_none_iff] at hlast
      simp [hlast]
  | some value =>
      rw [hset, Option.map_some, eq_comm, Option.map_eq_some_iff] at hlast
      obtain ⟨color, hlast, hvalue⟩ := hlast
      rw [hlast, Option.getD_some, Option.some_inj, ← color?_eq_always_iff, ← hvalue,
        Option.some_inj]

end Parsed

end Options

end ParseReport
