import War3BattleTool.Foundation.JsonText

set_option autoImplicit false

/-!
# Compact JSON text is unambiguous

A writer is delimited when the value and the end of its text are known from any text that it
begins (`Delimited`).  The property is kept by optional values, arrays and members of objects, so
a message with named fields is known from its text.

Nothing but a number needs to know what follows it: no digit follows a value (`Ends`).
-/

namespace War3BattleTool.Foundation.Json

/-- What may stand behind a value: not a digit. -/
def Ends (rest : List Char) : Prop := ∀ c ∈ rest.head?, c.isDigit = false

theorem ends_nil : Ends [] := by simp [Ends]

theorem ends_cons {c : Char} {rest : List Char} (hc : c.isDigit = false) : Ends (c :: rest) := by
  simpa [Ends] using hc

/-- A text that a value begins tells the value, and what follows it. -/
structure Delimited {α : Type} (write : α → List Char) : Prop where
  inj : ∀ {x y rest rest'}, Ends rest → Ends rest' → write x ++ rest = write y ++ rest' →
    x = y ∧ rest = rest'

variable {α β : Type} {write : α → List Char}

theorem Delimited.injective (h : Delimited write) : Function.Injective write := by
  intro x y hxy
  exact (h.inj ends_nil ends_nil (congrArg (· ++ []) hxy)).1

theorem Delimited.comp {f : β → α} (h : Delimited write) (hf : Function.Injective f) :
    Delimited (write ∘ f) := by
  refine ⟨fun {x y rest rest'} hrest hrest' htext => ?_⟩
  obtain ⟨hxy, heq⟩ := h.inj hrest hrest' htext
  exact ⟨hf hxy, heq⟩

/-! ## Numbers -/

theorem takeWhile_number (n : Nat) {rest : List Char} (hrest : Ends rest) :
    (number n ++ rest).takeWhile Char.isDigit = number n := by
  have hdigits : ∀ c ∈ number n, c.isDigit = true := fun c hc =>
    Nat.isDigit_of_mem_toDigits (by decide) (by decide) hc
  rw [List.takeWhile_append_of_pos hdigits]
  cases rest with
  | nil => simp
  | cons c rest => simp [hrest c (by simp)]

theorem number_injective : Function.Injective number := by
  intro n m h
  rw [← Nat.ofDigitChars_ten_toDigits (n := n), ← Nat.ofDigitChars_ten_toDigits (n := m)]
  exact congrArg (fun digits => Nat.ofDigitChars 10 digits 0) h

theorem delimited_number : Delimited number := by
  refine ⟨fun {n m rest rest'} hrest hrest' htext => ?_⟩
  have hdigits : number n = number m := by
    rw [← takeWhile_number n hrest, htext, takeWhile_number m hrest']
  rw [hdigits] at htext
  exact ⟨number_injective hdigits, List.append_cancel_left htext⟩

/-! ## Strings -/

theorem shortEscape_injective {c d letter : Char} (hc : shortEscape c = some letter)
    (hd : shortEscape d = some letter) : c = d := by
  have hnat : c.toNat = d.toNat := by
    unfold shortEscape at hc hd
    split at hc <;> cases hc <;> split at hd <;> first | (cases hd; done) | simp_all
  exact Char.toNat_inj.mp hnat

/-- No short escape looks like a long one. -/
theorem shortEscape_ne {c : Char} : shortEscape c ≠ some 'u' := by
  unfold shortEscape
  split <;> decide

theorem digitChar_injective {a b : Nat} (ha : a < 16) (hb : b < 16)
    (h : a.digitChar = b.digitChar) : a = b := by
  have hall : ∀ a < 16, ∀ b < 16, a.digitChar = b.digitChar → a = b := by decide
  exact hall a ha b hb h

/-- A character stands for itself only if it needs no escape. -/
theorem escape_cases (c : Char) :
    (∃ letter, shortEscape c = some letter ∧ escape c = [backslash, letter]) ∨
    (c.toNat < 0x20 ∧ escape c =
      [backslash, 'u', '0', '0', (c.toNat / 16).digitChar, (c.toNat % 16).digitChar]) ∨
    (c ≠ backslash ∧ c ≠ quotationMark ∧ escape c = [c]) := by
  unfold escape
  cases hshort : shortEscape c with
  | some letter => exact .inl ⟨letter, rfl, rfl⟩
  | none =>
      dsimp only
      split
      next hcontrol => exact .inr (.inl ⟨hcontrol, rfl⟩)
      next =>
        refine .inr (.inr ⟨?_, ?_, rfl⟩) <;> rintro rfl <;> revert hshort <;> decide

/-- The text of a character tells the character. -/
theorem escape_append_inj {c d : Char} {x y : List Char} (h : escape c ++ x = escape d ++ y) :
    c = d ∧ x = y := by
  rcases escape_cases c with ⟨l, hl, hc⟩ | ⟨hl, hc⟩ | ⟨hb, _, hc⟩ <;>
    rcases escape_cases d with ⟨l', hl', hd⟩ | ⟨hl', hd⟩ | ⟨hb', _, hd⟩ <;>
    rw [hc, hd] at h <;>
    simp only [List.cons_append, List.nil_append, List.cons.injEq, true_and] at h
  · exact ⟨shortEscape_injective hl (h.1 ▸ hl'), h.2⟩
  · exact absurd (h.1 ▸ hl) shortEscape_ne
  · exact absurd h.1.symm hb'
  · exact absurd (h.1 ▸ hl') shortEscape_ne
  · obtain ⟨hhigh, hlow, hxy⟩ := h
    have hdiv := digitChar_injective (by omega) (by omega) hhigh
    have hmod := digitChar_injective (by omega) (by omega) hlow
    exact ⟨Char.toNat_inj.mp (by omega), hxy⟩
  · exact absurd h.1.symm hb'
  · exact absurd h.1 hb
  · exact absurd h.1 hb
  · exact h

/-- No character of a string looks like its end. -/
theorem head?_escape_ne (c : Char) (x : List Char) :
    (escape c ++ x).head? ≠ some quotationMark := by
  rcases escape_cases c with ⟨_, _, hc⟩ | ⟨_, hc⟩ | ⟨_, hquote, hc⟩ <;> rw [hc]
  · simp [quotationMark, backslash]
  · simp [quotationMark, backslash]
  · simpa using hquote

theorem content_append_inj {cs ds rest rest' : List Char}
    (h : cs.flatMap escape ++ quotationMark :: rest = ds.flatMap escape ++ quotationMark :: rest') :
    cs = ds ∧ rest = rest' := by
  induction cs generalizing ds with
  | nil =>
      cases ds with
      | nil => simpa using h
      | cons d ds =>
          rw [List.flatMap_cons, List.append_assoc] at h
          exact absurd (congrArg List.head? h).symm (head?_escape_ne d _)
  | cons c cs ih =>
      cases ds with
      | nil =>
          rw [List.flatMap_cons, List.append_assoc] at h
          exact absurd (congrArg List.head? h) (head?_escape_ne c _)
      | cons d ds =>
          rw [List.flatMap_cons, List.flatMap_cons, List.append_assoc, List.append_assoc] at h
          obtain ⟨rfl, htail⟩ := escape_append_inj h
          obtain ⟨rfl, hrest⟩ := ih htail
          exact ⟨rfl, hrest⟩

theorem string_append (s : String) (rest : List Char) :
    string s ++ rest = quotationMark :: (s.toList.flatMap escape ++ quotationMark :: rest) := by
  simp [string]

theorem delimited_string : Delimited string := by
  refine ⟨fun {s s' rest rest'} _ _ h => ?_⟩
  rw [string_append, string_append] at h
  obtain ⟨hs, hrest⟩ := content_append_inj (List.cons.inj h).2
  exact ⟨String.toList_inj.mp hs, hrest⟩

/-! ## Optional values, arrays and members -/

/-- The texts of a writer begin with something else than the given character. -/
def NeverBegins (write : α → List Char) (c : Char) : Prop :=
  ∀ x rest, (write x ++ rest).head? ≠ some c

theorem Delimited.optional (h : Delimited write) (hnull : NeverBegins write 'n') :
    Delimited (optional write) := by
  refine ⟨fun {x y rest rest'} hrest hrest' htext => ?_⟩
  cases x with
  | none =>
      cases y with
      | none => exact ⟨rfl, List.append_cancel_left htext⟩
      | some y => exact absurd (congrArg List.head? htext).symm (hnull y rest')
  | some x =>
      cases y with
      | none => exact absurd (congrArg List.head? htext) (hnull x rest)
      | some y =>
          obtain ⟨rfl, heq⟩ := h.inj hrest hrest' htext
          exact ⟨rfl, heq⟩

/-- What stands behind the first of the parts that commas separate. -/
def others (parts : List (List Char)) : List Char := parts.flatMap fun part => ',' :: part

theorem intercalate_cons (part : List Char) (parts : List (List Char)) :
    [','].intercalate (part :: parts) = part ++ others parts := by
  induction parts generalizing part with
  | nil => simp [others]
  | cons next parts ih =>
      rw [List.intercalate_cons_cons, ih]
      simp [others]

theorem ends_others (parts : List (List Char)) {rest : List Char} (hrest : Ends rest) :
    Ends (others parts ++ rest) := by
  cases parts with
  | nil => exact hrest
  | cons part parts => exact ends_cons (by decide)

/-- Items behind the first, up to the closing bracket. -/
theorem others_append_inj (h : Delimited write) {xs ys : List α} {rest rest' : List Char}
    (htext : others (xs.map write) ++ ']' :: rest = others (ys.map write) ++ ']' :: rest') :
    xs = ys ∧ rest = rest' := by
  have hclose : ∀ rest, Ends (']' :: rest) := fun _ => ends_cons (by decide)
  induction xs generalizing ys with
  | nil =>
      cases ys with
      | nil => simpa [others] using htext
      | cons y ys => simp [others] at htext
  | cons x xs ih =>
      cases ys with
      | nil => simp [others] at htext
      | cons y ys =>
          simp only [others, List.map_cons, List.flatMap_cons, List.cons_append,
            List.append_assoc, List.cons.injEq, true_and] at htext
          obtain ⟨rfl, htail⟩ := h.inj (ends_others (xs.map write) (hclose rest))
            (ends_others (ys.map write) (hclose rest')) htext
          obtain ⟨rfl, hrest⟩ := ih htail
          exact ⟨rfl, hrest⟩

theorem array_append (part : List Char) (parts : List (List Char)) (rest : List Char) :
    array (part :: parts) ++ rest = '[' :: (part ++ (others parts ++ ']' :: rest)) := by
  simp [array, intercalate_cons]

theorem Delimited.array (h : Delimited write) (hclose : NeverBegins write ']') :
    Delimited fun xs : List α => Json.array (xs.map write) := by
  have hends : ∀ rest, Ends (']' :: rest) := fun _ => ends_cons (by decide)
  refine ⟨fun {xs ys rest rest'} _ _ htext => ?_⟩
  cases xs with
  | nil =>
      cases ys with
      | nil => exact ⟨rfl, List.append_cancel_left htext⟩
      | cons y ys =>
          rw [List.map_cons, array_append] at htext
          exact absurd (congrArg List.head? (List.cons.inj htext).2).symm (hclose y _)
  | cons x xs =>
      cases ys with
      | nil =>
          rw [List.map_cons, array_append] at htext
          exact absurd (congrArg List.head? (List.cons.inj htext).2) (hclose x _)
      | cons y ys =>
          rw [List.map_cons, List.map_cons, array_append, array_append] at htext
          obtain ⟨rfl, htail⟩ := h.inj (ends_others (xs.map write) (hends rest))
            (ends_others (ys.map write) (hends rest')) (List.cons.inj htext).2
          obtain ⟨rfl, hrest⟩ := others_append_inj h htail
          exact ⟨rfl, hrest⟩

/-- The closing brace. -/
def closingBrace : Char := Char.ofNat 0x7d

theorem object_append (part : List Char) (parts : List (List Char)) (rest : List Char) :
    object (part :: parts) ++ rest =
      Char.ofNat 0x7b :: (part ++ (others parts ++ closingBrace :: rest)) := by
  simp [object, intercalate_cons, closingBrace]

theorem ends_members (parts : List (List Char)) (rest : List Char) :
    Ends (others parts ++ closingBrace :: rest) :=
  ends_others parts (ends_cons (by decide))

variable {key : String} {x y : α} {parts parts' : List (List Char)} {rest rest' : List Char}

/-- The first member of an object, its name known. -/
theorem Delimited.first (h : Delimited write)
    (htext : object (member key (write x) :: parts) ++ rest =
      object (member key (write y) :: parts') ++ rest') :
    x = y ∧ others parts ++ closingBrace :: rest = others parts' ++ closingBrace :: rest' := by
  rw [object_append, object_append] at htext
  simp only [member, List.append_assoc, List.cons_append, List.cons.injEq, true_and] at htext
  exact h.inj (ends_members parts rest) (ends_members parts' rest')
    (List.cons.inj (List.append_cancel_left htext)).2

/-- Another member of an object, its name known. -/
theorem Delimited.next (h : Delimited write)
    (htext : others (member key (write x) :: parts) ++ closingBrace :: rest =
      others (member key (write y) :: parts') ++ closingBrace :: rest') :
    x = y ∧ others parts ++ closingBrace :: rest = others parts' ++ closingBrace :: rest' := by
  simp only [others, member, List.flatMap_cons, List.append_assoc, List.cons_append,
    List.cons.injEq, true_and] at htext
  exact h.inj (ends_members parts rest) (ends_members parts' rest')
    (List.cons.inj (List.append_cancel_left htext)).2

/-- Nothing stands between the last member and the closing brace. -/
theorem rest_of_no_members (htext : others [] ++ closingBrace :: rest =
    others [] ++ closingBrace :: rest') : rest = rest' :=
  (List.cons.inj htext).2

theorem neverBegins_string {c : Char} (hc : c ≠ quotationMark) : NeverBegins string c := by
  intro s rest
  rw [string_append]
  simpa using hc.symm

theorem neverBegins_object {f : α → List (List Char)} {c : Char} (hc : c ≠ Char.ofNat 0x7b) :
    NeverBegins (fun x => object (f x)) c := by
  intro x rest
  simpa [object] using hc.symm

theorem neverBegins_array {f : α → List (List Char)} {c : Char} (hc : c ≠ '[') :
    NeverBegins (fun x => array (f x)) c := by
  intro x rest
  simpa [array] using hc.symm

theorem neverBegins_number {c : Char} (hc : c.isDigit = false) : NeverBegins number c := by
  intro n rest hhead
  have hmem : c ∈ number n := by
    have hne : number n ≠ [] := Nat.toDigits_ne_nil
    rw [List.head?_append_of_ne_nil _ hne] at hhead
    exact List.mem_of_head? hhead
  have hdigit : c.isDigit = true := Nat.isDigit_of_mem_toDigits (by decide) (by decide) hmem
  rw [hc] at hdigit
  cases hdigit

end War3BattleTool.Foundation.Json
