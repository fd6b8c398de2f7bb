import Webserver.Decimal
import Webserver.Log.FixedBuffer
import Mathlib.Data.List.Flatten

/-!
# The stream of a log record

`LogStream` puts the texts of values one behind the other into a buffer. An item for
which there is not enough room is left out. There are two tests for that: a number needs
`kMaxNumericSize` bytes of room, however long it is, and then, like any other text, more
than it has bytes.

* `Log.LogStream.insert_eq`: what an item does to the bytes in the buffer
  (`Log.Item.put`).
* `Log.LogStream.insertAll_whole`: so the buffer holds whole items, in order, and all of
  them as long as there is room for a number behind them.
-/

namespace Webserver

namespace Log

def kMaxNumericSize : ℕ := 32

/-- The text that `snprintf` makes of a floating value, which has up to 31 characters. -/
structure Rendering where
  text : Bytes
  length_lt : text.length < kMaxNumericSize

/-- What can be inserted into a stream. A pointer to characters may be null. -/
inductive Item
  | bool (v : Bool)
  | char (v : UInt8)
  | short (v : Int16)
  | unsignedShort (v : UInt16)
  | int (v : Int32)
  | unsignedInt (v : UInt32)
  | long (v : Int64)
  | unsignedLong (v : UInt64)
  | longLong (v : Int64)
  | unsignedLongLong (v : UInt64)
  | float (v : Rendering)
  | double (v : Rendering)
  | longDouble (v : Rendering)
  | chars (v : Option Bytes)
  | unsignedChars (v : Option Bytes)
  | string (v : Bytes)

/-- The stream of a log statement, with its small buffer. -/
structure LogStream where
  buffer : FixedBuffer kSmallBuffer

namespace LogStream

/-- An empty stream, with what is in its memory. -/
def new (memory : ℕ → UInt8) : LogStream where
  buffer :=
    { data := (List.range kSmallBuffer).map memory
      cur := 0
      length_data := by rw [List.length_map, List.length_range]
      size_lt := by decide }

/-- Appends the bytes of a string. -/
def appendText (s : LogStream) (text : Bytes) : Option LogStream :=
  (s.buffer.appendText text).map LogStream.mk

/-- `LogStream::append`: the length is converted to `size_t`. -/
def append (s : LogStream) (data : ℕ → UInt8) (len : ℤ) : Option LogStream :=
  (s.buffer.append data (toSizeT len)).map LogStream.mk

/-! ## The operators -/

def formatInterger (s : LogStream) (v : ℤ) : Option LogStream :=
  if s.buffer.avail ≥ kMaxNumericSize then s.appendText (toStrInt v) else some s

/-- `snprintf` writes the text, and a NUL, behind the cursor, which is moved then. -/
def formatDouble (s : LogStream) (v : Rendering) : Option LogStream :=
  if s.buffer.avail ≥ kMaxNumericSize then
    (s.buffer.memcpy (FixedBuffer.pointer v.text) (v.text.length + 1)).map fun buffer =>
      ⟨buffer.add v.text.length⟩
  else some s

def insertChars (s : LogStream) : Option Bytes → Option LogStream
  | some v => s.appendText (cStr v)
  | none => s.appendText (bytes "(null)")

/-- The overloads of `operator<<`. -/
def insert (s : LogStream) : Item → Option LogStream
  | .bool v => s.appendText (if v then bytes "1" else bytes "0")
  | .char v => s.appendText [v]
  -- Short integers are converted to `int`.
  | .short v => s.formatInterger v.toInt
  | .unsignedShort v => s.formatInterger v.toNat
  | .int v => s.formatInterger v.toInt
  | .unsignedInt v => s.formatInterger v.toNat
  | .long v => s.formatInterger v.toInt
  | .unsignedLong v => s.formatInterger v.toNat
  | .longLong v => s.formatInterger v.toInt
  | .unsignedLongLong v => s.formatInterger v.toNat
  | .float v => s.formatDouble v
  | .double v => s.formatDouble v
  | .longDouble v => s.formatDouble v
  | .chars v => s.insertChars v
  | .unsignedChars v => s.insertChars v
  | .string v => s.appendText v

/-- Items are inserted one after the other. -/
def insertAll (s : LogStream) (items : List Item) : Option LogStream := items.foldlM insert s

end LogStream

/-! ## What an item does to the buffer -/

/-- The three ways in which items are inserted. -/
inductive Form
  | text (s : Bytes)
  | integer (v : ℤ)
  | double (v : Rendering)

namespace Form

def render : Form → Bytes
  | text s => s
  | integer v => toStrInt v
  | double v => v.text

/-- Whether there is enough room for it behind `n` bytes. -/
def Fits (f : Form) (n : ℕ) : Prop :=
  n + f.render.length < kSmallBuffer ∧
    match f with
    | text _ => True
    | _ => n + kMaxNumericSize ≤ kSmallBuffer

instance (f : Form) (n : ℕ) : Decidable (f.Fits n) :=
  match f with
  | text _ => inferInstanceAs (Decidable (_ ∧ True))
  | integer _ => inferInstanceAs (Decidable (_ ∧ _ ≤ _))
  | double _ => inferInstanceAs (Decidable (_ ∧ _ ≤ _))

/-- The length of the text is not narrowed. -/
def Bounded (f : Form) : Prop := f.render.length < 0x80000000

instance (f : Form) : Decidable f.Bounded := inferInstanceAs (Decidable (_ < _))

/-- What leaves room for a number fits. -/
theorem fits_of_le {f : Form} {n : ℕ} (h : n + f.render.length + kMaxNumericSize ≤ kSmallBuffer) :
    f.Fits n := by
  have hnumeric : 0 < kMaxNumericSize := by decide
  refine ⟨by omega, ?_⟩
  cases f with
  | text => trivial
  | integer | double => exact Nat.le_trans (by omega) h

end Form

namespace Item

def form : Item → Form
  | bool v => .text (if v then bytes "1" else bytes "0")
  | char v => .text [v]
  | short v => .integer v.toInt
  | unsignedShort v => .integer v.toNat
  | int v => .integer v.toInt
  | unsignedInt v => .integer v.toNat
  | long v => .integer v.toInt
  | unsignedLong v => .integer v.toNat
  | longLong v => .integer v.toInt
  | unsignedLongLong v => .integer v.toNat
  | float v => .double v
  | double v => .double v
  | longDouble v => .double v
  | chars v => .text (v.elim (bytes "(null)") cStr)
  | unsignedChars v => .text (v.elim (bytes "(null)") cStr)
  | string v => .text v

/-- The complete text of an item. -/
def render (i : Item) : Bytes := i.form.render

/-- What is in the buffer after inserting an item behind the bytes `c`. -/
def put (c : Bytes) (i : Item) : Bytes := if i.form.Fits c.length then c ++ i.render else c

/-- Strings have fewer than `2 ^ 31` bytes. -/
def Bounded : Item → Prop
  | chars (some v) => (cStr v).length < 0x80000000
  | unsignedChars (some v) => (cStr v).length < 0x80000000
  | string v => v.length < 0x80000000
  | _ => True

theorem bounded_integer {v : ℤ} (h : v.natAbs < 2 ^ 64) : (Form.integer v).Bounded :=
  Nat.lt_of_le_of_lt (length_toStrInt_le h) (by decide)

theorem bounded_double (v : Rendering) : (Form.double v).Bounded :=
  v.length_lt.trans (by decide)

/-- Numbers have few characters. -/
theorem Bounded.form {i : Item} (h : i.Bounded) : i.form.Bounded := by
  cases i with
  | bool v => cases v <;> decide +kernel
  | char v => exact (by decide : 1 < 0x80000000)
  | short v => exact bounded_integer (by have := v.toInt_lt; have := v.le_toInt; omega)
  | unsignedShort v => exact bounded_integer (by have := v.toNat_lt; omega)
  | int v => exact bounded_integer (by have := v.toInt_lt; have := v.le_toInt; omega)
  | unsignedInt v => exact bounded_integer (by have := v.toNat_lt; omega)
  | long v | longLong v =>
    exact bounded_integer (by have := v.toInt_lt; have := v.le_toInt; omega)
  | unsignedLong v | unsignedLongLong v => exact bounded_integer (by have := v.toNat_lt; omega)
  | float v | double v | longDouble v => exact bounded_double v
  | chars v | unsignedChars v =>
    cases v with
    | none => decide +kernel
    | some v => exact h
  | string v => exact h

theorem bounded_of_integer {i : Item} {v : ℤ} (h : i.form = .integer v) : i.Bounded := by
  cases i with
  | chars | unsignedChars | string => cases h
  | _ => trivial

/-! ### Items one after the other -/

theorem put_of_fits {c : Bytes} {i : Item} (h : i.form.Fits c.length) : put c i = c ++ i.render :=
  if_pos h

theorem length_put_lt {c : Bytes} (i : Item) (hc : c.length < kSmallBuffer) :
    (put c i).length < kSmallBuffer := by
  rw [put]
  split
  · next hfits =>
    rw [List.length_append]
    exact hfits.1
  · exact hc

theorem length_foldl_put_lt {c : Bytes} (items : List Item) (hc : c.length < kSmallBuffer) :
    (items.foldl put c).length < kSmallBuffer := by
  induction items generalizing c with
  | nil => exact hc
  | cons i items ih => exact ih (length_put_lt i hc)

/-- The items that find room, behind `n` bytes. -/
def fitting : List Item → ℕ → List Item
  | [], _ => []
  | i :: items, n =>
    if i.form.Fits n then i :: fitting items (n + i.render.length) else fitting items n

theorem fitting_sublist (items : List Item) (n : ℕ) : (fitting items n).Sublist items := by
  induction items generalizing n with
  | nil => exact .slnil
  | cons i items ih =>
    rw [fitting]
    split
    · exact (ih _).cons_cons i
    · exact (ih n).cons i

/-- Each item is appended as a whole or not at all. -/
theorem foldl_put_eq (items : List Item) (c : Bytes) :
    items.foldl put c = c ++ (fitting items c.length).flatMap render := by
  induction items generalizing c with
  | nil => exact (List.append_nil c).symm
  | cons i items ih =>
    rw [List.foldl_cons, ih, put, fitting]
    split
    · rw [List.flatMap_cons, List.append_assoc, List.length_append]
    · rfl

/-- Each of the items fits behind those before it. It does not matter whether one that has
    no text does. -/
def AllFit : List Item → ℕ → Prop
  | [], _ => True
  | i :: items, n => (i.render = [] ∨ i.form.Fits n) ∧ AllFit items (n + i.render.length)

theorem put_of_nil_or_fits {c : Bytes} {i : Item} (h : i.render = [] ∨ i.form.Fits c.length) :
    put c i = c ++ i.render := by
  rw [put]
  split
  · rfl
  · next hfits => rw [h.resolve_right hfits, List.append_nil]

theorem foldl_put_of_allFit {items : List Item} {c : Bytes} (h : AllFit items c.length) :
    items.foldl put c = c ++ items.flatMap render := by
  induction items generalizing c with
  | nil => exact (List.append_nil c).symm
  | cons i items ih =>
    rw [List.foldl_cons, put_of_nil_or_fits h.1, ih (by rw [List.length_append]; exact h.2),
      List.flatMap_cons, List.append_assoc]

theorem length_foldl_put_le (items : List Item) (c : Bytes) :
    (items.foldl put c).length ≤ c.length + (items.flatMap render).length := by
  rw [foldl_put_eq, List.length_append]
  exact Nat.add_le_add_left ((fitting_sublist items _).flatMap render).length_le _

/-- An item that does not fit makes the whole shorter. -/
theorem length_foldl_put_lt_of_not_allFit {items : List Item} {c : Bytes}
    (h : ¬AllFit items c.length) :
    (items.foldl put c).length < c.length + (items.flatMap render).length := by
  induction items generalizing c with
  | nil => exact absurd trivial h
  | cons i items ih =>
    rw [List.foldl_cons, List.flatMap_cons, List.length_append]
    by_cases hi : i.render = [] ∨ i.form.Fits c.length
    · have hrest : ¬AllFit items (put c i).length := fun hrest =>
        h ⟨hi, by rwa [put_of_nil_or_fits hi, List.length_append] at hrest⟩
      have hlt := ih hrest
      rw [put_of_nil_or_fits hi, List.length_append] at hlt
      rw [put_of_nil_or_fits hi]
      omega
    · obtain ⟨hne, hfits⟩ := not_or.1 hi
      have hpos := List.length_pos_of_ne_nil hne
      have hle := length_foldl_put_le items (put c i)
      rw [show put c i = c from if_neg hfits] at hle ⊢
      omega

/-- Nothing is put behind the last byte but one. -/
theorem foldl_put_of_full {items : List Item} {c : Bytes} (h : kSmallBuffer ≤ c.length + 1) :
    items.foldl put c = c := by
  induction items with
  | nil => rfl
  | cons i items ih =>
    have hput : put c i = c := by
      rw [put]
      split
      · next hfits =>
        have hlt : c.length + i.render.length < kSmallBuffer := hfits.1
        rw [List.eq_nil_of_length_eq_zero (by omega : i.render.length = 0), List.append_nil]
      · rfl
    rw [List.foldl_cons, hput, ih]

/-- All items are appended, if they leave room for a number. -/
theorem foldl_put_of_le {items : List Item} {c : Bytes}
    (h : c.length + (items.map fun i => i.render.length).sum + kMaxNumericSize ≤ kSmallBuffer) :
    items.foldl put c = c ++ items.flatMap render := by
  induction items generalizing c with
  | nil => exact (List.append_nil c).symm
  | cons i items ih =>
    rw [List.map_cons, List.sum_cons] at h
    have hfits : i.form.Fits c.length := Form.fits_of_le (by rw [render] at h; omega)
    rw [List.foldl_cons, put_of_fits hfits, ih (by rw [List.length_append]; omega),
      List.flatMap_cons, List.append_assoc]

end Item

namespace LogStream

/-- The bytes of the record so far. -/
def content (s : LogStream) : Bytes := s.buffer.content

theorem insert_eq_form (s : LogStream) (i : Item) : s.insert i =
    match i.form with
    | .text t => s.appendText t
    | .integer v => s.formatInterger v
    | .double v => s.formatDouble v := by
  cases i with
  | chars v | unsignedChars v => cases v <;> rfl
  | _ => rfl

variable {s s' : LogStream}

theorem appendText_eq (hs : s.buffer.Within) {text : Bytes} (htext : text.length < 0x80000000) :
    ∃ s', s.appendText text = some s' ∧ s'.buffer.Within ∧ s'.content =
      if s.content.length + text.length < kSmallBuffer then s.content ++ text else s.content := by
  obtain ⟨b, hb, hwithin, hcontent⟩ := FixedBuffer.appendText_eq hs htext
  exact ⟨⟨b⟩, by rw [appendText, hb, Option.map_some], hwithin, hcontent⟩

/-- A negative length is converted to one that no buffer has room for. -/
theorem append_of_neg (hs : s.buffer.Within) (data : ℕ → UInt8) {len : ℤ} (hlen : len < 0)
    (hint : -2 ^ 31 ≤ len) : s.append data len = none := by
  have hneg : toInt (toSizeT len) < 0 := by
    rw [toInt, toSizeT]
    split <;> omega
  rw [append, (FixedBuffer.append_eq_none_iff hs).2 (FixedBuffer.narrowed_of_neg hs hneg)]
  rfl

theorem avail_ge_iff (hs : s.buffer.Within) :
    s.buffer.avail ≥ kMaxNumericSize ↔ s.content.length + kMaxNumericSize ≤ kSmallBuffer := by
  rw [hs.avail, content, hs.length_content]
  omega

/-- A floating value is written behind the cursor first. -/
theorem formatDouble_eq (hs : s.buffer.Within) (v : Rendering) :
    ∃ s', s.formatDouble v = some s' ∧ s'.buffer.Within ∧ s'.content =
      if s.content.length + kMaxNumericSize ≤ kSmallBuffer then s.content ++ v.text
      else s.content := by
  rw [formatDouble]
  split
  · next havail =>
    have hroom := (avail_ge_iff hs).1 havail
    have htext := v.length_lt
    rw [if_pos hroom]
    rw [content, hs.length_content] at hroom
    obtain ⟨b, hb, -, hwithin, hcontent⟩ :=
      hs.memcpy (FixedBuffer.pointer v.text) (by omega) (Nat.le_succ v.text.length)
    rw [FixedBuffer.map_pointer] at hcontent
    exact ⟨⟨b.add v.text.length⟩, by rw [hb, Option.map_some], hwithin, hcontent⟩
  · next havail => exact ⟨s, rfl, hs, (if_neg fun h => havail ((avail_ge_iff hs).2 h)).symm⟩

/-- Inserting an item. -/
theorem insert_eq (hs : s.buffer.Within) {i : Item} (hbounded : i.form.Bounded) :
    ∃ s', s.insert i = some s' ∧ s'.buffer.Within ∧ s'.content = Item.put s.content i := by
  rw [insert_eq_form, Item.put, Item.render]
  cases hform : i.form with
  | text t =>
    rw [hform] at hbounded
    obtain ⟨s', hs', hwithin, hcontent⟩ := appendText_eq hs hbounded
    exact ⟨s', hs', hwithin, hcontent.trans (if_congr (and_iff_left trivial).symm rfl rfl)⟩
  | integer v =>
    rw [hform] at hbounded
    simp only [formatInterger, avail_ge_iff hs, Form.Fits, Form.render]
    split
    · next hroom =>
      simp only [hroom, and_true]
      exact appendText_eq hs hbounded
    · next hroom =>
      simp only [hroom, and_false, if_false]
      exact ⟨s, rfl, hs, rfl⟩
  | double v =>
    obtain ⟨s', hs', hwithin, hcontent⟩ := formatDouble_eq hs v
    refine ⟨s', hs', hwithin, hcontent.trans (if_congr ⟨fun h => ⟨?_, h⟩, And.right⟩ rfl rfl)⟩
    exact Nat.lt_of_lt_of_le (Nat.add_lt_add_left v.length_lt _) h

/-- An item that is not narrowed has the same effect, however long it is. -/
theorem insert_eq_some (hs : s.buffer.Within) {i : Item} (h : s.insert i = some s') :
    s'.buffer.Within ∧ s'.content = Item.put s.content i := by
  by_cases hi : i.form.Bounded
  · obtain ⟨s₁, hs₁, hwithin, hcontent⟩ := insert_eq hs hi
    cases hs₁.symm.trans h
    exact ⟨hwithin, hcontent⟩
  · have hsize : kSmallBuffer < 0x80000000 := by decide
    have hlong : 0x80000000 ≤ i.form.render.length := Nat.not_lt.1 hi
    rw [Item.put, if_neg fun hfits => by have hlt := hfits.1; omega]
    rw [insert_eq_form] at h
    cases hform : i.form with
    | text t =>
      rw [hform] at h hlong
      have hlong : 0x80000000 ≤ t.length := hlong
      obtain ⟨b, hb, rfl⟩ := Option.map_eq_some_iff.1 h
      obtain ⟨hwithin, rfl | ⟨hfits, -⟩⟩ := FixedBuffer.append_eq_some hs hb
      · exact ⟨hs, rfl⟩
      · omega
    | integer v => exact absurd (Item.bounded_of_integer hform).form hi
    | double v => exact absurd (hform ▸ Item.bounded_double v) hi

theorem insertAll_eq_some (hs : s.buffer.Within) {items : List Item}
    (h : s.insertAll items = some s') :
    s'.buffer.Within ∧ s'.content = items.foldl Item.put s.content := by
  induction items generalizing s with
  | nil =>
    cases h
    exact ⟨hs, rfl⟩
  | cons i items ih =>
    rw [insertAll, List.foldlM_cons, Option.bind_eq_bind, Option.bind_eq_some_iff] at h
    obtain ⟨s₁, hs₁, hrest⟩ := h
    obtain ⟨hwithin, hcontent⟩ := insert_eq_some hs hs₁
    rw [List.foldl_cons, ← hcontent]
    exact ih hwithin hrest

theorem insertAll_eq (hs : s.buffer.Within) {items : List Item} (hitems : ∀ i ∈ items, i.Bounded) :
    ∃ s', s.insertAll items = some s' ∧ s'.buffer.Within ∧
      s'.content = items.foldl Item.put s.content := by
  induction items generalizing s with
  | nil => exact ⟨s, rfl, hs, rfl⟩
  | cons i items ih =>
    obtain ⟨hi, hitems⟩ := List.forall_mem_cons.1 hitems
    obtain ⟨s₁, hs₁, hwithin, hcontent⟩ := insert_eq hs hi.form
    obtain ⟨s', hs', hwithin', hcontent'⟩ := ih hwithin hitems
    refine ⟨s', ?_, hwithin', ?_⟩
    · rw [insertAll, List.foldlM_cons, hs₁]
      exact hs'
    · rw [hcontent', hcontent, List.foldl_cons]

theorem within_new (memory : ℕ → UInt8) : (new memory).buffer.Within := Nat.zero_le _

theorem content_new (memory : ℕ → UInt8) : (new memory).content = [] := rfl

/-- The buffer holds complete items in order, it is never full, and no item is left out
    if together they leave room for a number. -/
theorem insertAll_whole (memory : ℕ → UInt8) {items : List Item}
    (hitems : ∀ i ∈ items, i.Bounded) :
    ∃ s, (new memory).insertAll items = some s ∧
      (∃ kept : List Item, kept.Sublist items ∧ s.content = kept.flatMap Item.render) ∧
      s.content.length ≤ kSmallBuffer - 1 ∧
      ((items.map fun i => i.render.length).sum ≤ kSmallBuffer - 32 →
        s.content = items.flatMap Item.render) := by
  obtain ⟨s, hs, -, hcontent⟩ := insertAll_eq (within_new memory) hitems
  rw [content_new] at hcontent
  refine ⟨s, hs, ?_, ?_, fun hsum => ?_⟩
  · exact ⟨_, Item.fitting_sublist items 0, hcontent.trans (Item.foldl_put_eq items [])⟩
  · have hlt := Item.length_foldl_put_lt items (c := []) (by decide)
    rw [hcontent]
    omega
  · rw [hcontent, Item.foldl_put_of_le, List.nil_append]
    have hsize : kSmallBuffer = 4000 := rfl
    have hnumeric : kMaxNumericSize = 32 := rfl
    rw [List.length_nil]
    omega

/-- A text, a number and a null pointer. -/
theorem insertAll_whole_three :
    ∃ s, (new fun _ => 0).insertAll [.string (bytes "fd:"), .int 7, .chars none] = some s ∧
      (∃ kept : List Item, kept.Sublist [.string (bytes "fd:"), .int 7, .chars none] ∧
        s.content = kept.flatMap Item.render) ∧
      s.content.length ≤ kSmallBuffer - 1 ∧
      (([.string (bytes "fd:"), .int 7, .chars none].map fun i : Item => i.render.length).sum ≤
        kSmallBuffer - 32 →
        s.content = [.string (bytes "fd:"), .int 7, .chars none].flatMap Item.render) :=
  insertAll_whole _ (List.forall_mem_cons.2 ⟨show (bytes "fd:").length < _ by decide +kernel,
    List.forall_mem_cons.2 ⟨trivial, List.forall_mem_cons.2 ⟨trivial, nofun⟩⟩⟩)

end LogStream

end Log

end Webserver
