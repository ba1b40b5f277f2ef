import Mathlib.Data.List.Basic

/-!
# Texts that can be read back

When what is written for a value tells which value it was, also with more text behind it. `Decodes`
says this of two values: where their texts begin the same text, the values have the same key, and
what stands behind them is the same. Lists of such values that are written one after the other with
a separator between neighbours can be read back as a whole (`eq_of_separated`, `eq_of_joined`).
-/

set_option autoImplicit false
set_option relaxedAutoImplicit false

namespace Formula.Text

/-- Whether a text does not begin with a character of a class. -/
def StartsWithout (holds : Char → Bool) (rest : List Char) : Prop :=
  ∀ character ∈ rest.head?, ¬ holds character

theorem startsWithout_nil (holds : Char → Bool) : StartsWithout holds [] :=
  nofun

theorem startsWithout_cons {holds : Char → Bool} {next : Char} {rest : List Char}
    (h : ¬ holds next) : StartsWithout holds (next :: rest) := by
  intro character hcharacter
  rw [List.head?_cons, Option.mem_some_iff] at hcharacter
  rwa [← hcharacter]

theorem StartsWithout.mono {holds other : Char → Bool} {rest : List Char}
    (h : StartsWithout holds rest) (hother : ∀ character, other character → holds character) :
    StartsWithout other rest :=
  fun character hcharacter hholds ↦ h character hcharacter (hother character hholds)

theorem takeWhile_append_of_startsWithout {holds : Char → Bool} {text rest : List Char}
    (htext : ∀ character ∈ text, holds character) (hrest : StartsWithout holds rest) :
    (text ++ rest).takeWhile holds = text := by
  rw [List.takeWhile_append_of_pos htext]
  cases rest with
  | nil => exact List.append_nil _
  | cons next rest => rw [List.takeWhile_cons_of_neg (hrest next rfl), List.append_nil]

/-- Characters of a class can be read back where none of them follows. -/
theorem eq_of_startsWithout {holds : Char → Bool} {first second firstRest secondRest : List Char}
    (hfirst : ∀ character ∈ first, holds character)
    (hsecond : ∀ character ∈ second, holds character)
    (hfirstRest : StartsWithout holds firstRest) (hsecondRest : StartsWithout holds secondRest)
    (h : first ++ firstRest = second ++ secondRest) : first = second ∧ firstRest = secondRest := by
  have htext := congrArg (List.takeWhile holds) h
  rw [takeWhile_append_of_startsWithout hfirst hfirstRest,
    takeWhile_append_of_startsWithout hsecond hsecondRest] at htext
  subst htext
  exact ⟨rfl, List.append_cancel_left h⟩

variable {α κ : Type}

/-- Whether two values have the same key wherever their texts begin the same text. What stands
behind the texts has to be something that may follow, and is the same, too. -/
def Decodes (write : α → List Char) (key : α → κ) (follows : List Char → Prop)
    (first second : α) : Prop :=
  ∀ firstRest secondRest, follows firstRest → follows secondRest →
    write first ++ firstRest = write second ++ secondRest →
    key first = key second ∧ firstRest = secondRest

variable {write : α → List Char} {key : α → κ} {follows : List Char → Prop}
  {separator : List Char} {firsts seconds : List α} {firstRest secondRest : List Char}

/-- Values with a separator in front of each of them can be read back, if neither rest begins with
a separator. -/
theorem eq_of_separated
    (hdecodes : ∀ first ∈ firsts, ∀ second ∈ seconds, Decodes write key follows first second)
    (hseparator : ∀ rest, follows (separator ++ rest))
    (hfirst : follows firstRest) (hsecond : follows secondRest)
    (hfirstEnd : ¬ separator <+: firstRest) (hsecondEnd : ¬ separator <+: secondRest)
    (h : firsts.flatMap (separator ++ write ·) ++ firstRest =
      seconds.flatMap (separator ++ write ·) ++ secondRest) :
    firsts.map key = seconds.map key ∧ firstRest = secondRest := by
  have hfollows {others : List α} {rest : List Char} (hrest : follows rest) :
      follows (others.flatMap (separator ++ write ·) ++ rest) := by
    cases others with
    | nil => exact hrest
    | cons other others =>
      rw [List.flatMap_cons, List.append_assoc, List.append_assoc]
      exact hseparator _
  induction firsts generalizing seconds with
  | nil =>
    cases seconds with
    | nil => exact ⟨rfl, h⟩
    | cons second seconds =>
      rw [List.flatMap_cons, List.append_assoc, List.append_assoc] at h
      exact absurd ⟨_, h.symm⟩ hfirstEnd
  | cons first firsts ih =>
    cases seconds with
    | nil =>
      rw [List.flatMap_cons, List.append_assoc, List.append_assoc] at h
      exact absurd ⟨_, h⟩ hsecondEnd
    | cons second seconds =>
      simp only [List.flatMap_cons, List.append_assoc, List.append_cancel_left_eq] at h
      obtain ⟨hhead, hothers⟩ := List.forall_mem_cons.mp hdecodes
      obtain ⟨hkey, hrest⟩ := hhead second List.mem_cons_self _ _ (hfollows hfirst)
        (hfollows hsecond) h
      obtain ⟨hkeys, hends⟩ := ih (fun other hmem next hnext ↦
        hothers other hmem next (List.mem_cons_of_mem _ hnext)) hrest
      exact ⟨by rw [List.map_cons, List.map_cons, hkey, hkeys], hends⟩

/-- Values that are written one after the other can be read back if each of them can be in front of
everything, and something is written for it. -/
theorem eq_of_flatMap
    (hdecodes : ∀ first ∈ firsts, ∀ second ∈ seconds,
      Decodes write key (fun _ ↦ True) first second)
    (hne : ∀ value, write value ≠ []) (h : firsts.flatMap write = seconds.flatMap write) :
    firsts.map key = seconds.map key := by
  induction firsts generalizing seconds with
  | nil =>
    cases seconds with
    | nil => rfl
    | cons second seconds => exact absurd (List.append_eq_nil_iff.mp h.symm).1 (hne second)
  | cons first firsts ih =>
    cases seconds with
    | nil => exact absurd (List.append_eq_nil_iff.mp h).1 (hne first)
    | cons second seconds =>
      obtain ⟨hhead, hothers⟩ := List.forall_mem_cons.mp hdecodes
      obtain ⟨hkey, hrest⟩ := hhead second List.mem_cons_self _ _ trivial trivial h
      rw [List.map_cons, List.map_cons, hkey,
        ih (fun other hmem next hnext ↦ hothers other hmem next (List.mem_cons_of_mem _ hnext))
          hrest]

/-- What is written for values with a separator between neighbours: the first one, then the others
with a separator in front of each. -/
theorem intercalate_map_cons {β : Type} {write : α → List β} {separator : List β} (first : α)
    (others : List α) :
    separator.intercalate ((first :: others).map write) =
      write first ++ others.flatMap (separator ++ write ·) := by
  induction others generalizing first with
  | nil => simp
  | cons second others ih =>
    rw [List.map_cons, List.map_cons, List.intercalate_cons_cons, ← List.map_cons, ih,
      List.flatMap_cons, List.append_assoc, List.append_assoc]

/-- Values with a separator between neighbours can be read back, if there is a first one on both
sides and neither rest begins with a separator. -/
theorem eq_of_joined_cons {first second : α}
    (hdecodes : ∀ other ∈ first :: firsts, ∀ next ∈ second :: seconds,
      Decodes write key follows other next)
    (hseparator : ∀ rest, follows (separator ++ rest))
    (hfirst : follows firstRest) (hsecond : follows secondRest)
    (hfirstEnd : ¬ separator <+: firstRest) (hsecondEnd : ¬ separator <+: secondRest)
    (h : separator.intercalate ((first :: firsts).map write) ++ firstRest =
      separator.intercalate ((second :: seconds).map write) ++ secondRest) :
    (first :: firsts).map key = (second :: seconds).map key ∧ firstRest = secondRest := by
  refine eq_of_separated hdecodes hseparator hfirst hsecond hfirstEnd hsecondEnd ?_
  rw [intercalate_map_cons, intercalate_map_cons, List.append_assoc, List.append_assoc] at h
  simp only [List.flatMap_cons, List.append_assoc, h]

/-- Values with a separator between neighbours can be read back, if neither rest begins with a
separator or with a value. -/
theorem eq_of_joined
    (hdecodes : ∀ first ∈ firsts, ∀ second ∈ seconds, Decodes write key follows first second)
    (hseparator : ∀ rest, follows (separator ++ rest))
    (hfirst : follows firstRest) (hsecond : follows secondRest)
    (hfirstEnd : ¬ separator <+: firstRest) (hsecondEnd : ¬ separator <+: secondRest)
    (hfirsts : ∀ first ∈ firsts, ¬ write first <+: secondRest)
    (hseconds : ∀ second ∈ seconds, ¬ write second <+: firstRest)
    (h : separator.intercalate (firsts.map write) ++ firstRest =
      separator.intercalate (seconds.map write) ++ secondRest) :
    firsts.map key = seconds.map key ∧ firstRest = secondRest := by
  match firsts, seconds with
  | [], [] => exact ⟨rfl, h⟩
  | [], second :: seconds =>
    rw [intercalate_map_cons, List.append_assoc] at h
    exact absurd ⟨_, h.symm⟩ (hseconds second List.mem_cons_self)
  | first :: firsts, [] =>
    rw [intercalate_map_cons, List.append_assoc] at h
    exact absurd ⟨_, h⟩ (hfirsts first List.mem_cons_self)
  | first :: firsts, second :: seconds =>
    exact eq_of_joined_cons hdecodes hseparator hfirst hsecond hfirstEnd hsecondEnd h

end Formula.Text
