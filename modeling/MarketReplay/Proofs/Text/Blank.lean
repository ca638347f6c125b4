import MarketReplay.Text.Blank

/-!
# Trimming

Blanks at the ends of a text do not count, however many there are (`trim_append`), and a text that
begins and ends with other characters is trimmed already (`trim_of_ends`).

The second is how texts that the library writes are seen to survive the readers, which trim before
they read: only the first and the last character have to be known.
-/

set_option autoImplicit false

namespace MarketReplay.Text

variable {text : List Char}

theorem isBlank_of_isDigit {c : Char} (h : c.isDigit = true) : isBlank c = false := by
  have hdigit : 48 ≤ c.toNat ∧ c.toNat ≤ 57 := Char.isDigit_iff_toNat.mp h
  unfold isBlank
  simp
  omega

theorem trimStart_append {before : List Char} (hbefore : ∀ c ∈ before, isBlank c = true)
    (text : List Char) : trimStart (before ++ text) = trimStart text :=
  List.dropWhile_append_of_pos hbefore

theorem trimStart_of_head (h : ∀ c ∈ text.head?, isBlank c = false) : trimStart text = text := by
  cases text with
  | nil => rfl
  | cons c rest => exact List.dropWhile_cons_of_neg (by simp [h c rfl])

theorem trim_of_ends (hfirst : ∀ c ∈ text.head?, isBlank c = false)
    (hlast : ∀ c ∈ text.getLast?, isBlank c = false) : trim text = text := by
  have hreverse : ∀ c ∈ text.reverse.head?, isBlank c = false := by
    rwa [List.head?_reverse]
  rw [trim, trimStart_of_head hfirst, trimStart_of_head hreverse, List.reverse_reverse]

theorem trim_eq_self (h : ∀ c ∈ text, isBlank c = false) : trim text = text :=
  trim_of_ends (fun c hc => h c (List.mem_of_mem_head? hc))
    fun c hc => h c (List.mem_of_getLast? hc)

/-- **Blanks around a text do not count.** Blanks inside it do, and the text may begin or end with
some of its own. -/
theorem trim_append {before after : List Char} (hbefore : ∀ c ∈ before, isBlank c = true)
    (text : List Char) (hafter : ∀ c ∈ after, isBlank c = true) :
    trim (before ++ text ++ after) = trim text := by
  have hreverse : ∀ c ∈ after.reverse, isBlank c = true := fun c hc =>
    hafter c (List.mem_reverse.mp hc)
  rw [trim, trim, List.append_assoc, trimStart_append hbefore]
  cases hrest : trimStart text with
  | nil =>
    -- the text is blank as a whole
    have hblank : trimStart (text ++ after) = trimStart after := by
      rw [trimStart, trimStart, List.dropWhile_append] at *
      simp [hrest]
    rw [hblank, ← List.append_nil after, trimStart_append hafter]
    rfl
  | cons c more =>
    have hkept : trimStart (text ++ after) = (c :: more) ++ after := by
      rw [trimStart] at *
      rw [List.dropWhile_append, hrest]
      rfl
    rw [hkept, List.reverse_append, trimStart_append hreverse]

end MarketReplay.Text
