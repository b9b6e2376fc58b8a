import LuaGlobals.Text.Markup

/-! # Live tags

A bracket tag is read as markup when the backslashes right before it pair up, and is plain text when
one is left over. Escaping a text leaves no tag in it live. A tag can still come about where texts
are put together: the one ends within a tag, and the other closes it.

* `HasLiveTag` tells whether some tag in a text is live; `OpensTag` and `ClosesTag` tell what a text
  brings along for a tag across its end or its start.
* `AtBracket` looks behind the brackets that are not escaped, character by character.
* **`hasLiveTag_separated`**: the live tags of two texts with a separator between them.
* **`not_hasLiveTag_escapeMarkup`**: no tag in an escaped text is live. `opensTag_escapeMarkup` and
  `closesTag_escapeMarkup`: escaping changes nothing at the ends. -/

namespace LuaGlobals.Text

/-! ## Tags -/

/-- A bracket tag, from its opening bracket to a closing one with no further opening bracket
between. -/
def IsTag (text : List Char) : Prop :=
  ∃ c body, text = '[' :: c :: (body ++ [']']) ∧ isTagStart c = true ∧ '[' ∉ body

/-- The number of backslashes right behind a text, when `count` of them stand right before it. -/
def backslashesBehind (count : Nat) (text : List Char) : Nat :=
  text.foldl (fun count c => if c = '\\' then count + 1 else 0) count

/-- Some tag in the text has an even number of backslashes right before it. -/
def HasLiveTag (text : List Char) : Prop :=
  ∃ before tag after, text = before ++ tag ++ after ∧ IsTag tag ∧ backslashesBehind 0 before % 2 = 0

/-- Behind an opening bracket, the text goes on as a tag does and ends before any other bracket. -/
def Unclosed (rest : List Char) : Prop :=
  (∃ c ∈ rest.head?, isTagStart c = true) ∧ '[' ∉ rest ∧ ']' ∉ rest

/-- The text ends within a tag that is live if it is closed. -/
def OpensTag (text : List Char) : Prop :=
  ∃ before rest, text = before ++ '[' :: rest ∧ Unclosed rest ∧ backslashesBehind 0 before % 2 = 0

/-- The first bracket of the text is a closing one. -/
def ClosesTag (text : List Char) : Prop :=
  ∃ body after, text = body ++ ']' :: after ∧ '[' ∉ body

variable {front back rest sep text : List Char} {count : Nat} {goesOn : List Char → Prop}

/-! ## Closing brackets -/

/-- A closing bracket comes first, or later with no opening one before it. -/
theorem closesTag_cons {c : Char} :
    ClosesTag (c :: rest) ↔ c = ']' ∨ c ≠ '[' ∧ ClosesTag rest := by
  constructor
  · rintro ⟨body, after, htext, hbody⟩
    cases body with
    | nil => exact Or.inl (List.cons.inj htext).1
    | cons d body =>
        obtain ⟨rfl, rfl⟩ := List.cons.inj htext
        rw [List.mem_cons, not_or] at hbody
        exact Or.inr ⟨Ne.symm hbody.1, body, after, rfl, hbody.2⟩
  · rintro (rfl | ⟨hc, body, after, rfl, hbody⟩)
    · exact ⟨[], rest, rfl, List.not_mem_nil⟩
    · exact ⟨c :: body, after, rfl, List.not_mem_cons_of_ne_of_not_mem (Ne.symm hc) hbody⟩

/-- An empty text has no bracket. -/
theorem not_closesTag_nil : ¬ClosesTag [] := by
  rintro ⟨body, after, htext, -⟩
  exact absurd htext.symm (List.append_ne_nil_of_right_ne_nil body (List.cons_ne_nil _ _))

/-- The first bracket of two texts is that of the one, or of the other if the one has none. -/
theorem closesTag_append :
    ClosesTag (front ++ back) ↔
      ClosesTag front ∨ ('[' ∉ front ∧ ']' ∉ front) ∧ ClosesTag back := by
  induction front with
  | nil => simp [not_closesTag_nil]
  | cons c rest ih =>
      rw [List.cons_append, closesTag_cons, closesTag_cons, ih]
      by_cases hopen : c = '['
      · subst hopen
        simp
      · by_cases hclose : c = ']'
        · simp [hclose]
        · simp [hopen, hclose, Ne.symm hopen, Ne.symm hclose]

/-- What can follow an opening bracket is no bracket and no backslash. -/
theorem ne_of_isTagStart {c : Char} (hc : isTagStart c = true) : c ≠ '[' ∧ c ≠ ']' ∧ c ≠ '\\' := by
  refine ⟨?_, ?_, ?_⟩ <;> (rintro rfl; exact absurd hc (by decide))

/-- What follows an opening bracket makes it a tag when it starts so and a closing bracket comes
first. -/
theorem startsTag_cons {c : Char} :
    startsTag (c :: rest) = true ↔ isTagStart c = true ∧ ClosesTag rest := by
  have hcloses : (rest.dropWhile fun d => d != '[' && d != ']').head? == some ']'
      ↔ ClosesTag rest := by
    induction rest with
    | nil => simp [not_closesTag_nil]
    | cons d rest ih =>
        rw [closesTag_cons, ← ih]
        by_cases hopen : d = '['
        · simp [hopen]
        · by_cases hclose : d = ']' <;> simp [hopen, hclose]
  rw [startsTag, Bool.and_eq_true, hcloses]

/-- Behind a bracket, two texts make a tag when the first does, or when it ends within the tag and
the second closes it. -/
theorem startsTag_append (hback : ∀ c ∈ back.head?, isTagStart c = false) :
    startsTag (front ++ back) = true ↔
      startsTag front = true ∨ Unclosed front ∧ ClosesTag back := by
  cases front with
  | nil =>
      have hfront : ¬Unclosed [] := by rintro ⟨⟨c, ⟨⟩, -⟩, -⟩
      have hnone : startsTag back ≠ true := by
        cases back with
        | nil => exact Bool.false_ne_true
        | cons c rest =>
            rw [Ne, startsTag_cons, hback c rfl]
            exact fun h => Bool.false_ne_true h.1
      exact ⟨fun h => absurd h hnone, fun h => h.elim (absurd · Bool.false_ne_true)
        fun h => absurd h.1 hfront⟩
  | cons c rest =>
      rw [List.cons_append, startsTag_cons, startsTag_cons, closesTag_append]
      by_cases hc : isTagStart c = true
      · obtain ⟨hopen, hclose, -⟩ := ne_of_isTagStart hc
        simp [Unclosed, hc, Ne.symm hopen, Ne.symm hclose]
      · simp [Unclosed, hc]

/-! ## Behind the brackets that are not escaped -/

/-- The text has an opening bracket with an even number of backslashes before it and goes on so
behind it. Right before the text stand `count` backslashes. -/
def AtBracket (goesOn : List Char → Prop) (count : Nat) (text : List Char) : Prop :=
  ∃ before rest, text = before ++ '[' :: rest ∧ goesOn rest ∧ backslashesBehind count before % 2 = 0

theorem backslashesBehind_cons (count : Nat) (c : Char) (rest : List Char) :
    backslashesBehind count (c :: rest)
      = backslashesBehind (if c = '\\' then count + 1 else 0) rest :=
  rfl

/-- An empty text has no bracket. -/
theorem not_atBracket_nil : ¬AtBracket goesOn count [] := by
  rintro ⟨before, rest, htext, -⟩
  exact absurd htext.symm (List.append_ne_nil_of_right_ne_nil before (List.cons_ne_nil _ _))

/-- **A bracket stands first or later.** -/
theorem atBracket_cons {c : Char} :
    AtBracket goesOn count (c :: rest) ↔
      (c = '[' ∧ goesOn rest ∧ count % 2 = 0)
        ∨ AtBracket goesOn (if c = '\\' then count + 1 else 0) rest := by
  constructor
  · rintro ⟨before, after, htext, hafter, heven⟩
    cases before with
    | nil =>
        obtain ⟨rfl, rfl⟩ := List.cons.inj htext
        exact Or.inl ⟨rfl, hafter, heven⟩
    | cons d before =>
        obtain ⟨rfl, rfl⟩ := List.cons.inj htext
        exact Or.inr ⟨before, after, rfl, hafter, heven⟩
  · rintro (⟨rfl, hrest, heven⟩ | ⟨before, after, rfl, hafter, heven⟩)
    · exact ⟨[], rest, rfl, hrest, heven⟩
    · exact ⟨c :: before, after, rfl, hafter, heven⟩

/-- A text without opening brackets is passed over. -/
theorem atBracket_append (hsep : '[' ∉ sep) :
    AtBracket goesOn count (sep ++ back) ↔ AtBracket goesOn (backslashesBehind count sep) back := by
  induction sep generalizing count with
  | nil => rfl
  | cons c rest ih =>
      rw [List.mem_cons, not_or] at hsep
      rw [List.cons_append, atBracket_cons, ih hsep.2, backslashesBehind_cons]
      simp [Ne.symm hsep.1]

/-- Tags are looked for behind the brackets. -/
theorem hasLiveTag_iff : HasLiveTag text ↔ AtBracket (startsTag · = true) 0 text := by
  constructor
  · rintro ⟨before, tag, after, rfl, ⟨c, body, rfl, hc, hbody⟩, heven⟩
    refine ⟨before, c :: body ++ ']' :: after, by simp, ?_, heven⟩
    exact startsTag_cons.mpr ⟨hc, body, after, rfl, hbody⟩
  · rintro ⟨before, rest, rfl, hstarts, heven⟩
    cases rest with
    | nil => exact absurd hstarts Bool.false_ne_true
    | cons c rest =>
        obtain ⟨hc, body, after, rfl, hbody⟩ := startsTag_cons.mp hstarts
        exact ⟨before, '[' :: c :: (body ++ [']']), after, by simp, ⟨c, body, rfl, hc, hbody⟩,
          heven⟩

/-- The live tags of two texts are those of the first, those that the second closes, and those of
the second. -/
theorem atBracket_startsTag_append (hback : ∀ c ∈ back.head?, isTagStart c = false) :
    AtBracket (startsTag · = true) count (front ++ back) ↔
      AtBracket (startsTag · = true) count front
        ∨ AtBracket Unclosed count front ∧ ClosesTag back
        ∨ AtBracket (startsTag · = true) (backslashesBehind count front) back := by
  induction front generalizing count with
  | nil => simp [not_atBracket_nil, backslashesBehind]
  | cons c rest ih =>
      rw [List.cons_append, atBracket_cons, atBracket_cons, atBracket_cons, ih,
        startsTag_append hback, backslashesBehind_cons]
      -- What happens at the first character and behind it is only put in another order.
      by_cases hc : c = '[' <;> by_cases heven : count % 2 = 0 <;> simp only [hc, heven] <;> grind

/-! ## Texts with a separator between them -/

/-- A text that keeps tags apart on both of its sides: it neither goes on with a tag nor escapes
one, and has no bracket of its own. -/
structure Separates (sep : List Char) : Prop where
  /-- It does not start as a tag goes on. -/
  head : ∃ c ∈ sep.head?, isTagStart c = false
  /-- It does not end with a backslash. -/
  last : ∃ c ∈ sep.getLast?, c ≠ '\\'
  /-- It opens no tag. -/
  open_not_mem : '[' ∉ sep
  /-- It closes no tag. -/
  close_not_mem : ']' ∉ sep

/-- Behind a separator there are no backslashes. -/
theorem Separates.backslashesBehind (h : Separates sep) (count : Nat) :
    backslashesBehind count sep = 0 := by
  obtain ⟨c, hlast, hc⟩ := h.last
  obtain ⟨front, rfl⟩ := List.getLast?_eq_some_iff.mp hlast
  rw [Text.backslashesBehind, List.foldl_append, List.foldl_cons, if_neg hc, List.foldl_nil]

/-- A separator leaves closing brackets to what follows it. -/
theorem Separates.closesTag_append (h : Separates sep) :
    ClosesTag (sep ++ back) ↔ ClosesTag back := by
  have hsep : ¬ClosesTag sep := by
    rintro ⟨body, after, rfl, -⟩
    exact h.close_not_mem (List.mem_append_right _ List.mem_cons_self)
  rw [Text.closesTag_append]
  simp [hsep, h.open_not_mem, h.close_not_mem]

/-- **The live tags of two texts with a separator between them** are those of the texts, and one
across the separator if the first text opens it and the second closes it. -/
theorem hasLiveTag_separated (h : Separates sep) (front back : List Char) :
    HasLiveTag (front ++ (sep ++ back)) ↔
      HasLiveTag front ∨ HasLiveTag back ∨ OpensTag front ∧ ClosesTag back := by
  have hhead : ∀ c ∈ (sep ++ back).head?, isTagStart c = false := by
    obtain ⟨d, hd, hstart⟩ := h.head
    obtain ⟨rest, rfl⟩ := List.head?_eq_some_iff.mp hd
    rintro c ⟨⟩
    exact hstart
  rw [hasLiveTag_iff, hasLiveTag_iff, hasLiveTag_iff, atBracket_startsTag_append hhead,
    atBracket_append h.open_not_mem, h.backslashesBehind, h.closesTag_append]
  exact or_congr_right or_comm

/-! ## Escaped texts -/

/-- Escaping adds nothing but backslashes. -/
theorem mem_escapeTags {c : Char} (hc : c ≠ '\\') :
    c ∈ escapeTags count text ↔ c ∈ text := by
  induction text generalizing count with
  | nil => rfl
  | cons d rest ih =>
      unfold escapeTags
      split
      · rw [List.mem_cons, List.mem_cons, ih]
      · split
        · rw [List.mem_append, List.mem_cons, List.mem_cons, ih, List.mem_replicate]
          simp [hc]
        · rw [List.mem_cons, List.mem_cons, ih]

/-- Backslashes behind backslashes are counted together. -/
theorem backslashesBehind_replicate (count more : Nat) :
    backslashesBehind count (List.replicate more '\\') = count + more := by
  induction more generalizing count with
  | zero => rfl
  | succ more ih =>
      rw [List.replicate_succ, backslashesBehind_cons, if_pos rfl, ih]
      omega

/-- The first bracket stays the first. -/
theorem closesTag_escapeTags : ClosesTag (escapeTags count text) ↔ ClosesTag text := by
  induction text generalizing count with
  | nil => rfl
  | cons c rest ih =>
      unfold escapeTags
      split
      · rw [closesTag_cons, closesTag_cons, ih]
      · split
        case isTrue htag =>
            rw [closesTag_append, closesTag_cons, closesTag_cons, htag.1]
            have hnone : ¬ClosesTag (List.replicate (count + 1) '\\') := by
              rintro ⟨body, after, htext, -⟩
              have hmem : ']' ∈ List.replicate (count + 1) '\\' := by simp [htext]
              exact absurd (List.eq_of_mem_replicate hmem) (by decide)
            simp [hnone]
        case isFalse => rw [closesTag_cons, closesTag_cons, ih]

/-- What can follow an opening bracket is left as it is, and so is its place. -/
theorem mem_head?_escapeTags {c : Char} (hc : isTagStart c = true) :
    c ∈ (escapeTags 0 rest).head? ↔ c ∈ rest.head? := by
  cases rest with
  | nil => rfl
  | cons d rest =>
      unfold escapeTags
      split
      · rfl
      · split
        case isTrue htag =>
            obtain ⟨hopen, -, hbackslash⟩ := ne_of_isTagStart hc
            simp [htag.1, Ne.symm hbackslash, Ne.symm hopen]
        case isFalse => rfl

/-- A bracket starts a tag after the escape exactly when it did before. -/
theorem startsTag_escapeTags : startsTag (escapeTags 0 rest) = true ↔ startsTag rest = true := by
  have hread (text : List Char) : startsTag text = true ↔
      (∃ c ∈ text.head?, isTagStart c = true) ∧ ClosesTag text := by
    cases text with
    | nil => simp [startsTag]
    | cons c tail =>
        rw [startsTag_cons, closesTag_cons]
        by_cases hc : isTagStart c = true
        · obtain ⟨hopen, hclose, -⟩ := ne_of_isTagStart hc
          simp [hc, hopen, hclose]
        · simp [hc]
  rw [hread, hread, closesTag_escapeTags]
  have hhead : (∃ c ∈ (escapeTags 0 rest).head?, isTagStart c = true)
      ↔ ∃ c ∈ rest.head?, isTagStart c = true :=
    exists_congr fun c => and_congr_left fun hc => mem_head?_escapeTags hc
  rw [hhead]

/-- Whether a text ends within a tag is not changed by escaping it. -/
theorem unclosed_escapeTags : Unclosed (escapeTags 0 rest) ↔ Unclosed rest := by
  unfold Unclosed
  rw [mem_escapeTags (by decide), mem_escapeTags (by decide)]
  exact and_congr_left fun _ =>
    exists_congr fun c => and_congr_left fun hc => mem_head?_escapeTags hc

/-- A text that ends within a tag does not close it. -/
theorem Unclosed.not_startsTag (h : Unclosed rest) : ¬startsTag rest = true := by
  intro hstarts
  cases rest with
  | nil => exact Bool.false_ne_true hstarts
  | cons c rest =>
      obtain ⟨-, body, after, rfl, -⟩ := startsTag_cons.mp hstarts
      exact h.2.2 (List.mem_cons_of_mem _ (List.mem_append_right _ List.mem_cons_self))

/-- **Escaping settles every bracket.** One that starts a tag gets an odd number of backslashes
before it, and any other keeps those that it has. -/
theorem atBracket_escapeTags (hgoesOn : ∀ rest, goesOn (escapeTags 0 rest) ↔ goesOn rest) :
    AtBracket goesOn count (escapeTags count text) ↔
      AtBracket (fun rest => goesOn rest ∧ ¬startsTag rest = true) count text := by
  induction text generalizing count with
  | nil => exact iff_of_false not_atBracket_nil not_atBracket_nil
  | cons c rest ih =>
      unfold escapeTags
      split
      case isTrue hc =>
          subst hc
          rw [atBracket_cons, atBracket_cons, if_pos rfl, ih]
          simp
      case isFalse hbackslash =>
          split
          case isTrue htag =>
              have hodd : (count + (count + 1)) % 2 ≠ 0 := by omega
              have hplain : '[' ∉ List.replicate (count + 1) '\\' := fun h =>
                absurd (List.eq_of_mem_replicate h) (by decide)
              rw [atBracket_append hplain, backslashesBehind_replicate, atBracket_cons,
                atBracket_cons, if_neg hbackslash, ih]
              simp [hodd, htag.2, hbackslash]
          case isFalse htag =>
              rw [atBracket_cons, atBracket_cons, if_neg hbackslash, ih, hgoesOn]
              refine or_congr_left ?_
              refine and_congr_right fun hc => ?_
              have hnone : ¬startsTag rest = true := fun h => htag ⟨hc, h⟩
              simp [hnone]

/-- A backslash at the end changes nothing at the brackets. -/
theorem atBracket_concat_backslash (hgoesOn : ∀ rest, goesOn (rest ++ ['\\']) ↔ goesOn rest) :
    AtBracket goesOn count (text ++ ['\\']) ↔ AtBracket goesOn count text := by
  induction text generalizing count with
  | nil =>
      rw [List.nil_append, atBracket_cons]
      simp [not_atBracket_nil]
  | cons c rest ih => rw [List.cons_append, atBracket_cons, atBracket_cons, ih, hgoesOn]

/-- The backslash that ends an escaped text changes nothing at the brackets. -/
theorem atBracket_escapeMarkup (hescape : ∀ rest, goesOn (escapeTags 0 rest) ↔ goesOn rest)
    (hconcat : ∀ rest, goesOn (rest ++ ['\\']) ↔ goesOn rest) :
    AtBracket goesOn 0 (escapeMarkup text) ↔
      AtBracket (fun rest => goesOn rest ∧ ¬startsTag rest = true) 0 text := by
  unfold escapeMarkup
  dsimp only
  split
  · rw [atBracket_concat_backslash hconcat, atBracket_escapeTags hescape]
  · exact atBracket_escapeTags hescape

/-- **No tag in an escaped text is live.** -/
theorem not_hasLiveTag_escapeMarkup (text : List Char) : ¬HasLiveTag (escapeMarkup text) := by
  have hconcat (rest : List Char) : startsTag (rest ++ ['\\']) = true ↔ startsTag rest = true := by
    rw [startsTag_append (by rintro _ ⟨⟩; decide)]
    simp [closesTag_cons, not_closesTag_nil]
  rw [hasLiveTag_iff, atBracket_escapeMarkup (fun _ => startsTag_escapeTags) hconcat]
  rintro ⟨before, rest, -, ⟨hstarts, hnone⟩, -⟩
  exact hnone hstarts

/-- **An escaped text ends within a tag exactly when the text does.** -/
theorem opensTag_escapeMarkup (text : List Char) :
    OpensTag (escapeMarkup text) ↔ OpensTag text := by
  have hconcat (rest : List Char) : Unclosed (rest ++ ['\\']) ↔ Unclosed rest := by
    cases rest with
    | nil => simp [Unclosed, isTagStart]
    | cons c rest => simp [Unclosed]
  have hescaped : AtBracket Unclosed 0 (escapeMarkup text)
      ↔ AtBracket (fun rest => Unclosed rest ∧ ¬startsTag rest = true) 0 text :=
    atBracket_escapeMarkup (fun _ => unclosed_escapeTags) hconcat
  refine hescaped.trans ?_
  exact exists_congr fun before => exists_congr fun rest => and_congr_right fun _ =>
    and_congr_left fun _ => and_iff_left_of_imp Unclosed.not_startsTag

/-- **An escaped text closes a tag exactly when the text does.** -/
theorem closesTag_escapeMarkup (text : List Char) :
    ClosesTag (escapeMarkup text) ↔ ClosesTag text := by
  unfold escapeMarkup
  dsimp only
  split
  · rw [closesTag_append, closesTag_escapeTags]
    simp [closesTag_cons, not_closesTag_nil]
  · exact closesTag_escapeTags

end LuaGlobals.Text
