import ParseReport.Check.Token

/-!
# Reading a text character by character

Which characters of a text belong to string literals is said here without tokens: a mode is
carried from one character to the next. The characters outside the literals, each with the text
on both sides of it, are the sites that a check has to look at.
-/

namespace ParseReport.Check

/-- How a character is read. Within a literal the mode keeps the text before its opening quote. -/
inductive Mode
  | outside
  | inside (quote : Text)
  /-- Directly after a backslash in a literal. -/
  | escaped (quote : Text)
  deriving DecidableEq

/-- The mode after a character that comes after `before`. -/
def Mode.next (before : Text) (c : Char) : Mode → Mode
  | outside => if c = '"' then inside before else outside
  | inside quote =>
    if c = '"' then outside else if c = '\\' then escaped quote else inside quote
  | escaped quote => inside quote

/-- The text before the opening quote of the literal that is being read. -/
def Mode.quote? : Mode → Option Text
  | outside => none
  | inside quote => some quote
  | escaped quote => some quote

theorem Mode.quote?_eq_none_iff {mode : Mode} : mode.quote? = none ↔ mode = .outside := by
  cases mode <;> simp [quote?]

/-- The mode at the end of a text that comes after `before`. -/
def modeFrom (before : Text) : Mode → Text → Mode
  | mode, [] => mode
  | mode, c :: t => modeFrom (before ++ [c]) (mode.next before c) t

/-- The text before the quote of a literal that the end of the text cuts off; none if every
literal is closed. -/
def openLiteral? (t : Text) : Option Text := (modeFrom [] .outside t).quote?

/-- A character outside the literals and the text on both sides of it. -/
structure Site where
  before : Text
  char : Char
  after : Text
  deriving DecidableEq

/-- The whole text that a site belongs to. -/
def Site.text (s : Site) : Text := s.before ++ s.char :: s.after

/-- The sites of a text that comes after `before`, in text order. -/
def sitesFrom (before : Text) : Mode → Text → List Site
  | _, [] => []
  | mode, c :: t =>
    if mode = .outside ∧ c ≠ '"' then
      ⟨before, c, t⟩ :: sitesFrom (before ++ [c]) (mode.next before c) t
    else
      sitesFrom (before ++ [c]) (mode.next before c) t

/-- The characters outside the literals of a text. -/
def sites (t : Text) : List Site := sitesFrom [] .outside t

/-- The sites are where reading is outside and meets no quote. -/
theorem mem_sitesFrom_iff {before t : Text} {mode : Mode} {s : Site} :
    s ∈ sitesFrom before mode t ↔
      ∃ part, s.before = before ++ part ∧ t = part ++ s.char :: s.after ∧
        modeFrom before mode part = .outside ∧ s.char ≠ '"' := by
  induction t generalizing before mode with
  | nil => simp [sitesFrom]
  | cons c t ih =>
      have hmem : s ∈ sitesFrom before mode (c :: t) ↔
          (s = ⟨before, c, t⟩ ∧ mode = .outside ∧ c ≠ '"') ∨
            s ∈ sitesFrom (before ++ [c]) (mode.next before c) t := by
        rw [sitesFrom]
        split <;> simp_all
      rw [hmem, ih]
      constructor
      · rintro (⟨rfl, hmode, hquote⟩ | ⟨part, hbefore, rfl, hmode, hquote⟩)
        · exact ⟨[], by simp, rfl, hmode, hquote⟩
        · exact ⟨c :: part, by simp [hbefore], rfl, hmode, hquote⟩
      · rintro ⟨part, hbefore, ht, hmode, hquote⟩
        cases part with
        | nil =>
            obtain ⟨rfl, rfl⟩ := List.cons.inj ht
            rw [List.append_nil] at hbefore
            exact .inl ⟨by rw [← hbefore], hmode, hquote⟩
        | cons d part =>
            obtain ⟨rfl, rfl⟩ := List.cons.inj ht
            exact .inr ⟨part, by simp [hbefore], rfl, hmode, hquote⟩

theorem mem_sites_iff {t : Text} {s : Site} :
    s ∈ sites t ↔ s.text = t ∧ modeFrom [] .outside s.before = .outside ∧ s.char ≠ '"' := by
  rw [sites, mem_sitesFrom_iff]
  constructor
  · rintro ⟨part, hbefore, rfl, hmode, hquote⟩
    rw [List.nil_append] at hbefore
    rw [Site.text, hbefore]
    exact ⟨rfl, hmode, hquote⟩
  · rintro ⟨rfl, hmode, hquote⟩
    exact ⟨s.before, rfl, rfl, hmode, hquote⟩

theorem modeFrom_append (before a b : Text) (mode : Mode) :
    modeFrom before mode (a ++ b) = modeFrom (before ++ a) (modeFrom before mode a) b := by
  induction a generalizing before mode with
  | nil => simp [modeFrom]
  | cons c a ih =>
      rw [List.cons_append, modeFrom, ih, modeFrom, List.append_assoc]
      rfl

/-- Only a quote leads into a literal or out of it. -/
theorem Mode.next_eq_outside_iff {before : Text} {c : Char} (hc : c ≠ '"') {mode : Mode} :
    mode.next before c = .outside ↔ mode = .outside := by
  cases mode with
  | outside => simp [next, hc]
  | inside quote =>
      rw [next, if_neg hc]
      split <;> simp
  | escaped quote => simp [next]

theorem modeFrom_eq_outside_iff {before run : Text} (hrun : ∀ c ∈ run, c ≠ '"') {mode : Mode} :
    modeFrom before mode run = .outside ↔ mode = .outside := by
  induction run generalizing before mode with
  | nil => rfl
  | cons c run ih =>
      rw [modeFrom, ih (fun d hd => hrun d (List.mem_cons_of_mem c hd)),
        Mode.next_eq_outside_iff (hrun c List.mem_cons_self)]

section Outside
variable {before t : Text} {c : Char}

theorem sitesFrom_cons (hc : c ≠ '"') :
    sitesFrom before .outside (c :: t) =
      ⟨before, c, t⟩ :: sitesFrom (before ++ [c]) .outside t := by
  rw [sitesFrom, if_pos ⟨rfl, hc⟩, Mode.next, if_neg hc]

theorem modeFrom_cons (hc : c ≠ '"') :
    modeFrom before .outside (c :: t) = modeFrom (before ++ [c]) .outside t := by
  rw [modeFrom, Mode.next, if_neg hc]

theorem sitesFrom_quote :
    sitesFrom before .outside ('"' :: t) = sitesFrom (before ++ ['"']) (.inside before) t := by
  rw [sitesFrom, if_neg (fun h => h.2 rfl), Mode.next, if_pos rfl]

theorem modeFrom_quote :
    modeFrom before .outside ('"' :: t) = modeFrom (before ++ ['"']) (.inside before) t := by
  rw [modeFrom, Mode.next, if_pos rfl]

/-- Reading stays outside where there is no quote. -/
theorem modeFrom_run {run : Text} (hrun : ∀ c ∈ run, c ≠ '"') :
    modeFrom before .outside (run ++ t) = modeFrom (before ++ run) .outside t := by
  induction run generalizing before with
  | nil => simp
  | cons c run ih =>
      rw [List.cons_append, modeFrom_cons (hrun c List.mem_cons_self),
        ih (fun d hd => hrun d (List.mem_cons_of_mem c hd)), List.append_assoc]
      rfl

end Outside

theorem not_backslash {c : Char} {t : Text} (hlone : c = '\\' → t = [] → False)
    (hescape : ∀ d t', c = '\\' → t = d :: t' → False) : c ≠ '\\' := by
  intro hc
  cases t with
  | nil => exact hlone hc rfl
  | cons d t => exact hescape d t hc rfl

/-- A literal counted up to its closing quote is passed without a site, and reading goes on
outside. -/
theorem exists_literal {t : Text} {passed length : Nat}
    (h : literalLength? t passed = some length) :
    ∃ body rest, t = body ++ '"' :: rest ∧ length = passed + body.length + 1 ∧
      ∀ before quote,
        sitesFrom before (.inside quote) t = sitesFrom (before ++ (body ++ ['"'])) .outside rest ∧
        modeFrom before (.inside quote) t = modeFrom (before ++ (body ++ ['"'])) .outside rest := by
  fun_induction literalLength? t passed with
  | case1 => simp at h
  | case2 rest passed =>
      refine ⟨[], rest, rfl, by simpa using h.symm, ?_⟩
      intro before quote
      exact ⟨rfl, rfl⟩
  | case3 => simp at h
  | case4 c t passed ih =>
      obtain ⟨body, rest, rfl, hlength, hread⟩ := ih h
      refine ⟨'\\' :: c :: body, rest, rfl, ?_, ?_⟩
      · simp only [List.length_cons]
        omega
      · intro before quote
        have hmore := hread (before ++ ['\\'] ++ [c]) quote
        simpa [sitesFrom, modeFrom, Mode.next] using hmore
  | case5 c t passed hquote hlone hescape ih =>
      obtain ⟨body, rest, rfl, hlength, hread⟩ := ih h
      have hback : c ≠ '\\' := not_backslash hlone hescape
      refine ⟨c :: body, rest, rfl, ?_, ?_⟩
      · simp only [List.length_cons]
        omega
      · intro before quote
        have hmore := hread (before ++ [c]) quote
        have hnext : Mode.next before c (.inside quote) = .inside quote := by
          rw [Mode.next, if_neg hquote, if_neg hback]
        simpa [sitesFrom, modeFrom, hnext] using hmore

/-- A literal that is not closed reaches to the end of the text. -/
theorem inside_of_not_closed {t : Text} {passed : Nat} (h : literalLength? t passed = none)
    (before quote : Text) :
    sitesFrom before (.inside quote) t = [] ∧
      (modeFrom before (.inside quote) t).quote? = some quote := by
  fun_induction literalLength? t passed generalizing before with
  | case1 => exact ⟨rfl, rfl⟩
  | case2 => simp at h
  | case3 => exact ⟨rfl, rfl⟩
  | case4 c t passed ih =>
      have hmore := ih h (before ++ ['\\'] ++ [c])
      simpa [sitesFrom, modeFrom, Mode.next] using hmore
  | case5 c t passed hquote hlone hescape ih =>
      have hmore := ih h (before ++ [c])
      have hnext : Mode.next before c (.inside quote) = .inside quote := by
        rw [Mode.next, if_neg hquote, if_neg (not_backslash hlone hescape)]
      simpa [sitesFrom, modeFrom, hnext] using hmore

end ParseReport.Check
