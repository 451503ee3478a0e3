import LanScan.ForStd.Json
import Mathlib.Data.List.TakeWhile

/-!
# The JSON parser decides the grammar

Soundness is an induction on the fuel, completeness one on the length of the text: the items
of a bracket are shorter than the bracket.

## Key results

- `items_sound`, `items_complete`: lists of items, for any parser of one item
- `value_sound`, `value_complete`: values
- `parse_iff`: `parse` accepts the JSON texts, with their values
-/

universe u

namespace Json

variable {α : Type u} {cs rest : List Char}

/-! ## Whitespace -/

/-- A text that does not continue a number. -/
def Follow (cs : List Char) : Prop := ∀ c, cs.head? = some c → isNumberChar c = false

/-- A text that starts with something else than whitespace or `close`. -/
def Starts (close : Char) (cs : List Char) : Prop :=
  ∃ c rest, cs = c :: rest ∧ isSpace c = false ∧ c ≠ close

/-- `skip` takes whitespace away in front of anything. -/
theorem skip_space_append {l : List Char} (hl : Space l) (cs : List Char) :
    skip (l ++ cs) = skip cs :=
  List.dropWhile_append_of_pos hl

/-- `skip` stops at the first character that is no whitespace. -/
theorem skip_cons {c : Char} (hc : isSpace c = false) (cs : List Char) :
    skip (c :: cs) = c :: cs := by
  simp [skip, hc]

/-- `skip` takes nothing from what starts like a value. -/
theorem skip_of_starts {close : Char} (h : Starts close cs) (rest : List Char) :
    skip (cs ++ rest) = cs ++ rest := by
  obtain ⟨c, tail, rfl, hc, -⟩ := h
  exact skip_cons hc _

/-- Skipping takes whitespace off the front. -/
theorem exists_skip (cs : List Char) : ∃ l, Space l ∧ cs = l ++ skip cs :=
  ⟨cs.takeWhile isSpace, fun _ hc => List.mem_takeWhile_imp hc,
    List.takeWhile_append_dropWhile.symm⟩

/-- Whitespace is no part of a number. -/
theorem isNumberChar_of_isSpace {c : Char} (h : isSpace c = true) : isNumberChar c = false := by
  simp only [isSpace, Bool.or_eq_true, beq_iff_eq] at h
  rcases h with ((rfl | rfl) | rfl) | rfl <;> decide

/-- Whitespace does not continue a number. -/
theorem follow_space {r : List Char} (hr : Space r) (h : Follow rest) : Follow (r ++ rest) := by
  cases r with
  | nil => exact h
  | cons c r =>
    intro d hd
    cases hd
    exact isNumberChar_of_isSpace (hr c List.mem_cons_self)

/-- A character that is no part of a number may follow one. -/
theorem follow_cons {c : Char} (hc : isNumberChar c = false) (cs : List Char) :
    Follow (c :: cs) := by
  intro d hd
  cases hd
  exact hc

/-! ## Strings -/

/-- `hex4` reads exactly four digits. -/
theorem length_of_hex4 {ds : List Char} {n : Nat} (h : hex4 ds = some n) : ds.length = 4 := by
  unfold hex4 at h
  split at h
  · rfl
  · cases h

/-- What `unicode` reads behind a `\u` is an escape of the grammar. -/
theorem unicode_sound {u : List UInt16} (h : unicode cs = some (u, rest)) :
    ∃ l, cs = l ++ rest ∧ Letter ('\\' :: 'u' :: l) u := by
  obtain ⟨n, hn, heq⟩ := Option.map_eq_some_iff.mp h
  cases heq
  exact ⟨cs.take 4, (List.take_append_drop 4 cs).symm, .unicode hn⟩

/-- What `letter` takes off the front is a character or an escape for the units it returns. -/
theorem letter_sound {u : List UInt16} (h : letter cs = some (u, rest)) :
    ∃ l, cs = l ++ rest ∧ Letter l u := by
  unfold letter at h
  split at h
  · cases h
  · next d tail =>
    split at h
    · next hd =>
      subst hd
      split at h
      · cases h
      · next e tail =>
        split at h
        · next he =>
          subst he
          -- an escape of four hexadecimal digits
          obtain ⟨l, rfl, hl⟩ := unicode_sound h
          exact ⟨'\\' :: 'u' :: l, rfl, hl⟩
        -- an escape of one character
        · obtain ⟨c', hc, heq⟩ := Option.map_eq_some_iff.mp h
          cases heq
          exact ⟨['\\', e], rfl, .escape hc⟩
    · next hd =>
      split at h
      · cases h
      · next hplain =>
        cases h
        obtain ⟨hquote, hcontrol⟩ := not_or.mp hplain
        exact ⟨[d], rfl, .plain hquote hd (Nat.not_lt.mp hcontrol)⟩

/-- A character or an escape is read as the units it stands for, whatever follows. -/
theorem letter_complete {l : List Char} {u : List UInt16} (h : Letter l u) (rest : List Char) :
    letter (l ++ rest) = some (u, rest) := by
  cases h with
  | plain hquote hescape hcontrol =>
    simp [letter, hquote, hescape, Nat.not_lt.mpr hcontrol]
  | @escape e c he =>
    -- the escapes of one character do not start with a `u`
    have hu : e ≠ 'u' := by
      rintro rfl
      cases he
    simp [letter, hu, he]
  | @unicode ds n hn =>
    have htake : (ds ++ rest).take 4 = ds := by simp [← length_of_hex4 hn]
    have hdrop : (ds ++ rest).drop 4 = rest := by simp [← length_of_hex4 hn]
    simp [letter, unicode, htake, hdrop, hn]

/-- No character is written with a quote in front. -/
theorem head?_of_letter {l : List Char} {u : List UInt16} (h : Letter l u) (rest : List Char) :
    ∃ d tail, l ++ rest = d :: tail ∧ d ≠ '"' := by
  cases h with
  | plain hquote => exact ⟨_, _, rfl, hquote⟩
  | escape | unicode => exact ⟨_, _, rfl, by decide⟩

/-- A letter takes at least one character of the text. -/
theorem length_pos_of_letter {l : List Char} {u : List UInt16} (h : Letter l u) :
    0 < l.length := by
  cases h with
  | plain | escape | unicode => exact Nat.succ_pos _

/-- The string goes on at everything but a quotation mark. -/
theorem letters_cons (n : Nat) {d : Char} (hd : d ≠ '"') (tail : List Char) :
    letters (n + 1) (d :: tail) = (letter (d :: tail)).bind fun (u, rest) =>
      (letters n rest).map fun (us, rest) => (u ++ us, rest) := by
  rw [letters]
  · intro rest heq
    cases heq
    exact hd rfl

/-- What `letters` takes off the front is the inside of a string and its closing quote. -/
theorem letters_sound {n : Nat} {us : List UInt16} (h : letters n cs = some (us, rest)) :
    ∃ l, cs = l ++ '"' :: rest ∧ Letters l us := by
  induction n generalizing cs us with
  | zero => cases h
  | succ n ih =>
    unfold letters at h
    split at h
    · cases h
      -- the closing quotation mark
      exact ⟨[], rfl, .nil⟩
    -- a letter, and the rest of the string behind it
    · obtain ⟨⟨u, tail⟩, hu, h⟩ := Option.bind_eq_some_iff.mp h
      obtain ⟨⟨us', tail'⟩, hus, heq⟩ := Option.map_eq_some_iff.mp h
      cases heq
      obtain ⟨l, rfl, hl⟩ := letter_sound hu
      obtain ⟨l', rfl, hl'⟩ := ih hus
      exact ⟨l ++ l', (List.append_assoc l l' _).symm, .cons hl hl'⟩

/-- The inside of a string is read to its end, with fuel for each of its characters. -/
theorem letters_complete {l : List Char} {us : List UInt16} (h : Letters l us)
    (rest : List Char) {n : Nat} (hn : l.length < n) :
    letters n (l ++ '"' :: rest) = some (us, rest) := by
  induction h generalizing n with
  | nil =>
    obtain ⟨n, rfl⟩ := Nat.exists_eq_succ_of_ne_zero (Nat.ne_zero_of_lt hn)
    rfl
  | @cons l cs u us hl hrest ih =>
    obtain ⟨n, rfl⟩ := Nat.exists_eq_succ_of_ne_zero (Nat.ne_zero_of_lt hn)
    obtain ⟨d, tail, htext, hd⟩ := head?_of_letter hl (cs ++ '"' :: rest)
    -- each step takes one character at least
    have hpos : 0 < l.length := length_pos_of_letter hl
    have hread := ih (n := n) (by simp only [List.length_append] at hn; omega)
    rw [List.append_assoc, htext, letters_cons n hd, ← htext, letter_complete hl]
    simp [hread]

/-! ## Lists of items -/

section Items

variable {item : List Char → Option (α × List Char)} {Item Item' : List Char → α → Prop}
  {close : Char} {n : Nat} {a : α} {as : List α}

/-- What `items` reads are items of the grammar up to the closing bracket, when what `item` reads
    is one. -/
theorem items_sound
    (hitem : ∀ cs a rest, item cs = some (a, rest) → ∃ l, cs = l ++ rest ∧ Item l a)
    (h : items item close n cs = some (as, rest)) :
    ∃ l, cs = l ++ close :: rest ∧ Items Item l as := by
  induction n generalizing cs as with
  | zero => cases h
  | succ n ih =>
    unfold items at h
    obtain ⟨⟨a, tail⟩, ha, h⟩ := Option.bind_eq_some_iff.mp h
    -- one item, with the whitespace before and behind it
    obtain ⟨l, hl, hcs⟩ := exists_skip cs
    obtain ⟨r, hr, htail⟩ := exists_skip tail
    obtain ⟨m, hm, hitem⟩ := hitem _ _ _ ha
    simp only at h
    split at h
    · cases h
    · next c tail' hskip =>
      rw [hskip] at htail
      split at h
      -- a comma: more items follow
      · next hcomma =>
        subst hcomma
        obtain ⟨⟨as', tail''⟩, has, heq⟩ := Option.map_eq_some_iff.mp h
        cases heq
        obtain ⟨k, hk, hitems⟩ := ih has
        refine ⟨l ++ (m ++ (r ++ ',' :: k)), ?_, .more hl hitem hr hitems⟩
        rw [hcs, hm, htail, hk]
        simp
      · split at h
        -- the closing bracket: it was the last one
        · next hclose =>
          cases h
          subst hclose
          refine ⟨l ++ (m ++ r), ?_, .one hl hitem hr⟩
          rw [hcs, hm, htail]
          simp
        · cases h

/-- What `bracketed` reads is a list of the grammar in brackets. -/
theorem bracketed_sound
    (hitem : ∀ cs a rest, item cs = some (a, rest) → ∃ l, cs = l ++ rest ∧ Item l a)
    (h : bracketed item close n cs = some (as, rest)) :
    ∃ l, cs = l ++ rest ∧ Bracketed Item close l as := by
  unfold bracketed at h
  split at h
  · cases h
  · next c tail hskip =>
    split at h
    -- The closing bracket directly behind the spaces: the brackets are empty.
    · next hclose =>
      subst hclose
      cases h
      obtain ⟨l, hl, hcs⟩ := exists_skip cs
      refine ⟨l ++ [c], ?_, .empty hl⟩
      rw [hcs, hskip]
      simp
    · obtain ⟨l, rfl, hl⟩ := items_sound hitem h
      exact ⟨l ++ [close], by simp, .items hl⟩

/-- The items of a list are no longer than the list, so that it is enough to know them up to its
    length. -/
theorem Items.mono (h : Items Item cs as)
    (himp : ∀ l a, l.length ≤ cs.length → Item l a → Item' l a) : Items Item' cs as := by
  induction h with
  | one hl ha hr =>
    exact .one hl (himp _ _ (by simp only [List.length_append]; omega) ha) hr
  | more hl ha hr hrest ih =>
    refine .more hl (himp _ _ (by simp only [List.length_append]; omega) ha) hr (ih ?_)
    intro l a hle
    exact himp l a (by simp only [List.length_append, List.length_cons]; omega)

/-- A text of items is at least as long as the list. -/
theorem Items.length_le (h : Items Item cs as) (hstarts : ∀ l a, Item l a → Starts close l) :
    as.length ≤ cs.length := by
  induction h with
  | one hl ha hr =>
    obtain ⟨c, tail, rfl, -⟩ := hstarts _ _ ha
    simp only [List.length_append, List.length_cons, List.length_nil]
    omega
  | more hl ha hr hrest ih =>
    simp only [List.length_append, List.length_cons]
    omega

/-- `items` reads any items of the grammar, when `item` reads each of them and they do not start
    with whitespace or the closing bracket. -/
theorem items_complete
    (hitem : ∀ l a rest, Item l a → Follow rest → item (l ++ rest) = some (a, rest))
    (hstarts : ∀ l a, Item l a → Starts close l) (hspace : isSpace close = false)
    (hnumber : isNumberChar close = false) (hcomma : close ≠ ',') (h : Items Item cs as)
    (rest : List Char) (hn : as.length ≤ n) :
    items item close n (cs ++ close :: rest) = some (as, rest) := by
  induction h generalizing n with
  | @one l m r a hl ha hr =>
    obtain ⟨n, rfl⟩ := Nat.exists_eq_succ_of_ne_zero (Nat.ne_zero_of_lt hn)
    have hfollow : Follow (r ++ close :: rest) := follow_space hr (follow_cons hnumber rest)
    have hread : item (skip (l ++ (m ++ (r ++ close :: rest)))) =
        some (a, r ++ close :: rest) := by
      rw [skip_space_append hl, skip_of_starts (hstarts m a ha), hitem m a _ ha hfollow]
    -- behind the last item stands the closing bracket
    have hnext : skip (r ++ close :: rest) = close :: rest := by
      rw [skip_space_append hr, skip_cons hspace]
    simp [items, hread, hnext, hcomma]
  | @more l m r cs a as hl ha hr hrest ih =>
    obtain ⟨n, rfl⟩ := Nat.exists_eq_succ_of_ne_zero (Nat.ne_zero_of_lt hn)
    let tail := ',' :: (cs ++ close :: rest)
    have hfollow : Follow (r ++ tail) := follow_space hr (follow_cons (by decide) _)
    have hread : item (skip (l ++ (m ++ (r ++ tail)))) = some (a, r ++ tail) := by
      rw [skip_space_append hl, skip_of_starts (hstarts m a ha), hitem m a _ ha hfollow]
    -- behind the others a comma
    have hnext : skip (r ++ tail) = tail := by
      rw [skip_space_append hr]
      exact skip_cons (by decide) _
    have hrec := ih (Nat.le_of_succ_le_succ hn)
    simp only [tail] at hread hnext
    simp [items, hread, hnext, hrec]

/-- The items of a bracketed list are shorter than the list. -/
theorem Bracketed.mono (h : Bracketed Item close cs as)
    (himp : ∀ l a, l.length < cs.length → Item l a → Item' l a) : Bracketed Item' close cs as := by
  cases h with
  | empty hl => exact .empty hl
  | items hcs =>
    refine .items (hcs.mono fun l a hle => himp l a ?_)
    simp only [List.length_append, List.length_singleton]
    omega

/-- `bracketed` reads any list of the grammar. -/
theorem bracketed_complete
    (hitem : ∀ l a rest, Item l a → Follow rest → item (l ++ rest) = some (a, rest))
    (hstarts : ∀ l a, Item l a → Starts close l) (hspace : isSpace close = false)
    (hnumber : isNumberChar close = false) (hcomma : close ≠ ',') (h : Bracketed Item close cs as)
    (rest : List Char) (hn : cs.length ≤ n) :
    bracketed item close n (cs ++ rest) = some (as, rest) := by
  cases h with
  | @empty l hl =>
    have hskip : skip (l ++ [close] ++ rest) = close :: rest := by
      rw [List.append_assoc, skip_space_append hl]
      exact skip_cons hspace _
    simp only [bracketed, hskip, if_true]
  | @items cs _ hcs =>
    have hlength : as.length ≤ n := by
      have hle := hcs.length_le hstarts
      simp only [List.length_append] at hn
      omega
    have hitems := items_complete hitem hstarts hspace hnumber hcomma hcs rest hlength
    -- the first item does not close the bracket
    obtain ⟨c, tail, hskip, hc⟩ : ∃ c tail, skip (cs ++ close :: rest) = c :: tail ∧ c ≠ close := by
      cases hcs with
      | @one l m r a hl ha hr =>
        obtain ⟨c, tail, rfl, hc, hne⟩ := hstarts _ _ ha
        exact ⟨c, _, by rw [List.append_assoc, skip_space_append hl]; exact skip_cons hc _, hne⟩
      | @more l m r cs' a as' hl ha hr hrest =>
        obtain ⟨c, tail, rfl, hc, hne⟩ := hstarts _ _ ha
        exact ⟨c, _, by rw [List.append_assoc, skip_space_append hl]; exact skip_cons hc _, hne⟩
    rw [List.append_assoc, List.singleton_append]
    simp only [bracketed, hskip, hc, if_false]
    exact hitems

end Items

/-! ## Members -/

section Members

variable {item : List Char → Option (α × List Char)} {Item : List Char → α → Prop} {n : Nat}

/-- What `member` reads is a member of the grammar. -/
theorem member_sound
    (hitem : ∀ cs a rest, item cs = some (a, rest) → ∃ l, cs = l ++ rest ∧ Item l a)
    (cs : List Char) (m : List UInt16 × α) (rest : List Char)
    (h : member item n cs = some (m, rest)) : ∃ l, cs = l ++ rest ∧ Member Item l m := by
  unfold member at h
  split at h
  · obtain ⟨⟨key, tail⟩, hkey, hmember⟩ := Option.bind_eq_some_iff.mp h
    -- the key
    obtain ⟨k, rfl, hk⟩ := letters_sound hkey
    -- the colon and the value behind it
    obtain ⟨l, hl, htail⟩ := exists_skip tail
    simp only at hmember
    split at hmember
    · next tail' hskip =>
      obtain ⟨⟨a, tail''⟩, ha, heq⟩ := Option.map_eq_some_iff.mp hmember
      cases heq
      obtain ⟨r, hr, htail'⟩ := exists_skip tail'
      obtain ⟨c, hc, ha⟩ := hitem _ _ _ ha
      refine ⟨_, ?_, .mk hk hl hr ha⟩
      rw [htail, hskip, htail', hc]
      simp
    · cases hmember
  · cases h

/-- `member` reads any member of the grammar. -/
theorem member_complete
    (hitem : ∀ l a rest, Item l a → Follow rest → item (l ++ rest) = some (a, rest))
    (hstarts : ∀ l a, Item l a → Starts '}' l) (l : List Char) (m : List UInt16 × α)
    (rest : List Char) (h : Member Item l m) (hn : l.length ≤ n) (hrest : Follow rest) :
    member item n (l ++ rest) = some (m, rest) := by
  cases h with
  | @mk k l r cs key a hk hl hr ha =>
    have hkey : letters n (k ++ '"' :: (l ++ ':' :: (r ++ (cs ++ rest)))) =
        some (key, l ++ ':' :: (r ++ (cs ++ rest))) := by
      refine letters_complete hk _ ?_
      simp only [List.length_cons, List.length_append] at hn
      omega
    -- The spaces before the colon are skipped; the colon itself is none.
    have hcolon : skip (l ++ ':' :: (r ++ (cs ++ rest))) = ':' :: (r ++ (cs ++ rest)) := by
      rw [skip_space_append hl]
      exact skip_cons (by decide) _
    have hvalue : item (skip (r ++ (cs ++ rest))) = some (a, rest) := by
      rw [skip_space_append hr, skip_of_starts (hstarts cs a ha), hitem cs a rest ha hrest]
    simp [member, hkey, hcolon, hvalue]

end Members

/-! ## Values -/

/-- What `numeral` reads is a number of the grammar. -/
theorem numeral_sound {v : Json} (h : numeral cs = some (v, rest)) :
    ∃ l, cs = l ++ rest ∧ Value l v := by
  simp only [numeral] at h
  split at h
  · next hnumber =>
    cases h
    refine ⟨_, List.takeWhile_append_dropWhile.symm, .number hnumber ?_⟩
    exact List.all_eq_true.mpr fun c hc => List.mem_takeWhile_imp hc
  · cases h

theorem value_sound {n : Nat} {v : Json} (h : value n cs = some (v, rest)) :
    ∃ l, cs = l ++ rest ∧ Value l v := by
  induction n generalizing cs v rest with
  | zero => cases h
  | succ n ih =>
    -- the values inside a bracket are read with less fuel
    have hvalue : ∀ cs v rest, value n cs = some (v, rest) → ∃ l, cs = l ++ rest ∧ Value l v :=
      fun _ _ _ h => ih h
    unfold value at h
    split at h
    · cases h
      exact ⟨['n', 'u', 'l', 'l'], rfl, .null⟩
    · cases h
      exact ⟨['t', 'r', 'u', 'e'], rfl, .true⟩
    · cases h
      exact ⟨['f', 'a', 'l', 's', 'e'], rfl, .false⟩
    · obtain ⟨⟨s, tail⟩, hs, heq⟩ := Option.map_eq_some_iff.mp h
      cases heq
      obtain ⟨l, rfl, hl⟩ := letters_sound hs
      exact ⟨'"' :: (l ++ ['"']), by simp, .string hl⟩
    · obtain ⟨⟨vs, tail⟩, hvs, heq⟩ := Option.map_eq_some_iff.mp h
      cases heq
      obtain ⟨l, rfl, hl⟩ := bracketed_sound hvalue hvs
      exact ⟨'[' :: l, rfl, .array hl⟩
    · obtain ⟨⟨ms, tail⟩, hms, heq⟩ := Option.map_eq_some_iff.mp h
      cases heq
      obtain ⟨l, rfl, hl⟩ := bracketed_sound (member_sound hvalue) hms
      exact ⟨'{' :: l, rfl, .object hl⟩
    · exact numeral_sound h

/-- No part of a number is whitespace. -/
theorem isSpace_of_isNumberChar {c : Char} (h : isNumberChar c = true) : isSpace c = false := by
  cases hspace : isSpace c with
  | false => rfl
  | true => rw [isNumberChar_of_isSpace hspace] at h; cases h

/-- A number starts with one of its characters. -/
theorem exists_of_isNumber (hnumber : isNumber cs = true) (hchars : cs.all isNumberChar = true) :
    ∃ c tail, cs = c :: tail ∧ isNumberChar c = true := by
  cases cs with
  | nil => exact absurd hnumber (by decide)
  | cons c tail => exact ⟨c, tail, rfl, List.all_eq_true.mp hchars c List.mem_cons_self⟩

/-- A value starts with no whitespace and with no closing bracket. -/
theorem starts_value {close : Char} (hclose : close = ']' ∨ close = '}') {v : Json}
    (h : Value cs v) : Starts close cs := by
  cases h with
  | number hnumber hchars =>
    obtain ⟨c, tail, rfl, hc⟩ := exists_of_isNumber hnumber hchars
    refine ⟨c, tail, rfl, isSpace_of_isNumberChar hc, ?_⟩
    rintro rfl
    rcases hclose with rfl | rfl <;> cases hc
  -- The other values start with a fixed character.
  | null | true | false | string | array | object =>
    refine ⟨_, _, rfl, by decide, ?_⟩
    rcases hclose with rfl | rfl <;> decide

/-- A member starts with a quotation mark. -/
theorem starts_member {Item : List Char → α → Prop} {m : List UInt16 × α}
    (h : Member Item cs m) : Starts '}' cs := by
  cases h with
  | mk => exact ⟨_, _, rfl, by decide, by decide⟩

/-- A number is read up to where it ends. -/
theorem numeral_complete (hnumber : isNumber cs = true) (hchars : cs.all isNumberChar = true)
    (hrest : Follow rest) : numeral (cs ++ rest) = some (.number cs, rest) := by
  have hcs : ∀ c ∈ cs, isNumberChar c = true := List.all_eq_true.mp hchars
  have hend : rest.takeWhile isNumberChar = [] ∧ rest.dropWhile isNumberChar = rest := by
    cases rest with
    | nil => exact ⟨rfl, rfl⟩
    | cons c tail => simp [hrest c rfl]
  simp only [numeral, List.takeWhile_append_of_pos hcs, List.dropWhile_append_of_pos hcs, hend,
    List.append_nil, hnumber, if_true]

/-- At a character of a number, `value` reads a number. -/
theorem value_number (n : Nat) {c : Char} (hc : isNumberChar c = true) (cs : List Char) :
    value (n + 1) (c :: cs) = numeral (c :: cs) := by
  unfold value
  split
  -- no other value starts with a number's character
  all_goals first
    | rfl
    | next heq => cases heq; cases hc

/-- At an opening bracket, `value` reads an array. -/
theorem value_array (n : Nat) (cs : List Char) : value (n + 1) ('[' :: cs) =
    (bracketed (value n) ']' n cs).map fun (vs, rest) => (.array vs, rest) :=
  rfl

/-- At an opening brace, `value` reads an object. -/
theorem value_object (n : Nat) (cs : List Char) : value (n + 1) ('{' :: cs) =
    (bracketed (member (value n) n) '}' n cs).map fun (ms, rest) => (.object ms, rest) :=
  rfl

/-- The members of an object whose values are no longer than `k`. -/
theorem member_bounded {k : Nat} {m : List UInt16 × Json} (h : Member Value cs m)
    (hk : cs.length ≤ k) : Member (fun l v => Value l v ∧ l.length ≤ k) cs m := by
  cases h with
  | mk hkey hl hr ha =>
    refine .mk hkey hl hr ⟨ha, ?_⟩
    simp only [List.length_cons, List.length_append] at hk
    omega

/-- `value` reads any value of the grammar, with fuel for its length. -/
theorem value_complete {n : Nat} {v : Json} (h : Value cs v) (hn : cs.length ≤ n)
    (hrest : Follow rest) : value (n + 1) (cs ++ rest) = some (v, rest) := by
  induction n generalizing cs v rest with
  | zero =>
    obtain ⟨c, tail, rfl, -⟩ := starts_value (.inl rfl) h
    cases hn
  | succ k ih =>
    -- the items of a bracket are shorter than the bracket
    have hitem : ∀ l v rest, Value l v ∧ l.length ≤ k → Follow rest →
        value (k + 1) (l ++ rest) = some (v, rest) :=
      fun _ _ _ h hrest => ih h.1 h.2 hrest
    cases h with
    | null | true | false => rfl
    | number hnumber hchars =>
      have hnumeral := numeral_complete hnumber hchars hrest
      obtain ⟨c, tail, rfl, hc⟩ := exists_of_isNumber hnumber hchars
      exact (value_number (k + 1) hc _).trans hnumeral
    | @string cs us hs =>
      have hlength : cs.length < k + 1 := by
        simp only [List.length_cons, List.length_append, List.length_nil] at hn
        omega
      have hletters := letters_complete hs rest hlength
      simp [value, hletters]
    | @array cs vs hvs =>
      have hbound : cs.length ≤ k := Nat.le_of_succ_le_succ hn
      have hvs' : Bracketed (fun l v => Value l v ∧ l.length ≤ k) ']' cs vs :=
        hvs.mono fun l v hl hv => ⟨hv, by omega⟩
      have hread := bracketed_complete hitem (fun l v h => starts_value (.inl rfl) h.1) (by decide)
        (by decide) (by decide) hvs' rest (Nat.le_succ_of_le hbound)
      rw [List.cons_append, value_array, hread]
      rfl
    | @object cs ms hms =>
      have hbound : cs.length ≤ k := Nat.le_of_succ_le_succ hn
      have hms' : Bracketed (fun l m => Member (fun l v => Value l v ∧ l.length ≤ k) l m ∧
          l.length ≤ k) '}' cs ms :=
        hms.mono fun l m hl hm => ⟨member_bounded hm (by omega), by omega⟩
      have hmember : ∀ l m rest, Member (fun l v => Value l v ∧ l.length ≤ k) l m ∧
          l.length ≤ k → Follow rest →
          member (value (k + 1)) (k + 1) (l ++ rest) = some (m, rest) :=
        fun l m rest h => member_complete hitem (fun l v h => starts_value (.inr rfl) h.1) l m rest
          h.1 (Nat.le_succ_of_le h.2)
      have hread := bracketed_complete hmember (fun l m h => starts_member h.1) (by decide)
        (by decide) (by decide) hms' rest (Nat.le_succ_of_le hbound)
      rw [List.cons_append, value_object, hread]
      rfl

/-! ## Texts -/

/-- Only whitespace is skipped whole. -/
theorem space_of_skip (h : skip cs = []) : Space cs := by
  obtain ⟨l, hl, hcs⟩ := exists_skip cs
  rw [hcs, h, List.append_nil]
  exact hl

/-- Whitespace is skipped whole. -/
theorem skip_of_space (h : Space cs) : skip cs = [] := by
  have hskip := skip_space_append h []
  rwa [List.append_nil] at hskip

/-- **The parser decides the grammar**, and a text has at most one value. -/
theorem parse_iff (cs : List Char) (v : Json) : parse cs = some v ↔ Text cs v := by
  constructor
  · intro h
    unfold parse at h
    split at h
    · next v' rest hvalue =>
      split at h
      · next hempty =>
        cases h
        -- whitespace, the value, and nothing but whitespace behind it
        obtain ⟨l, hl, hcs⟩ := exists_skip cs
        obtain ⟨m, hm, hv⟩ := value_sound hvalue
        refine ⟨l, m, rest, by rw [← hm, ← hcs], hl, hv, ?_⟩
        exact space_of_skip (List.isEmpty_iff.mp hempty)
      · cases h
    · cases h
  · rintro ⟨l, m, r, rfl, hl, hv, hr⟩
    -- the value starts behind the whitespace and ends where whitespace or nothing follows
    have hskip : skip (l ++ (m ++ r)) = m ++ r := by
      rw [skip_space_append hl, skip_of_starts (starts_value (.inl rfl) hv)]
    have hfollow : Follow r := List.append_nil r ▸ follow_space hr nofun
    have hvalue : value ((l ++ (m ++ r)).length + 1) (m ++ r) = some (v, r) :=
      value_complete hv (by simp only [List.length_append]; omega) hfollow
    simp only [parse, hskip, hvalue, skip_of_space hr, List.isEmpty_nil, if_true]

end Json
