import FlowAtlas.Proofs.Json.Guarded
/-! Documents inside a script element. A document of texts and truth values, written on one line and guarded, closes no
element, and it is what comes back when that line is read. -/
namespace FlowAtlas.Json

inductive Worded : Json → Prop where
  | null : Worded .null
  | bool (value : Bool) : Worded (.bool value)
  | text (value : String) : Worded (.text value)
  | array {items : List Json} (each : ∀ v ∈ items, Worded v) : Worded (.array items)
  | object {fields : List (String × Json)} (distinct : (fields.map (·.1)).Nodup)
      (each : ∀ f ∈ fields, Worded f.2) : Worded (.object fields)

def guarded (v : Json) : List Char := guardClosing (lineChars v)

def Opens (s : List Char) : Prop := ∃ c rest, s = c :: rest ∧ c ∈ ['n', 't', 'f', '"', '[', '\x7b']

def Reads (v : Json) : Prop :=
  ∀ stack rest, readValue stack (guarded v ++ rest) = close stack v rest

theorem guardedText (s : String) :
    guardClosing (writeString escapeRaw s) = '"' :: guardClosing (s.toList.flatMap escapeRaw) ++ ['"'] := by
  rw [writeString, List.cons_append, guardOther (by decide), guardApart (by decide) (by decide)]
  rfl

theorem guardedArray (items : List Json) :
    guarded (.array items) = '[' :: guardClosing (lineItems items) ++ [']'] := by
  rw [guarded, lineChars, List.cons_append, guardOther (by decide), guardApart (by decide) (by decide)]
  rfl

theorem guardedObject (fields : List (String × Json)) :
    guarded (.object fields) = '\x7b' :: guardClosing (lineFields fields) ++ ['\x7d'] := by
  rw [guarded, lineChars, List.cons_append, guardOther (by decide), guardApart (by decide) (by decide)]
  rfl

theorem Worded.opens {v : Json} (worded : Worded v) : Opens (guarded v) := by
  cases worded with
  | null => exact ⟨_, _, rfl, by decide⟩
  | bool value => cases value <;> exact ⟨_, _, rfl, by decide⟩
  | text value => exact ⟨_, _, guardedText value, by decide⟩
  | array each => exact ⟨_, _, guardedArray _, by decide⟩
  | object distinct each => exact ⟨_, _, guardedObject _, by decide⟩

theorem Opens.append {s : List Char} (opens : Opens s) (rest : List Char) : Opens (s ++ rest) := by
  obtain ⟨c, tail, rfl, mem⟩ := opens
  exact ⟨c, tail ++ rest, rfl, mem⟩

theorem Opens.skip {s : List Char} (opens : Opens s) : skipBlanks s = s ∧ skipBlanks (' ' :: s) = s := by
  obtain ⟨c, tail, rfl, mem⟩ := opens
  have visible : isBlank c = false := by
    simp only [List.mem_cons, List.not_mem_nil, or_false] at mem
    rcases mem with rfl | rfl | rfl | rfl | rfl | rfl <;> rfl
  have stays : skipBlanks (c :: tail) = c :: tail := List.dropWhile_cons_of_neg (by simp [visible])
  exact ⟨stays, stays⟩

theorem Opens.unclosed {s : List Char} (opens : Opens s) (after : List Char) :
    skipBlanks s ≠ ']' :: after ∧ skipBlanks s ≠ '\x7d' :: after := by
  rw [opens.skip.1]
  obtain ⟨c, tail, rfl, mem⟩ := opens
  constructor
  · rintro ⟨⟩
    exact absurd mem (by decide)
  · rintro ⟨⟩
    exact absurd mem (by decide)

theorem guardedItems (v w : Json) (rest : List Json) :
    guardClosing (lineItems (v :: w :: rest)) = guarded v ++ ',' :: ' ' :: guardClosing (lineItems (w :: rest)) := by
  rw [lineItems, guardApart (by decide) (by decide), guardOther (by decide)]
  · rfl
  · simp

theorem guardedField (k : String) (v : Json) : guardClosing (lineFields [(k, v)]) =
    '"' :: (guardClosing (k.toList.flatMap escapeRaw) ++ '"' :: ':' :: ' ' :: guarded v) := by
  rw [lineFields, guardApart (by decide) (by decide), guardOther (by decide), guardedText]
  simp [guarded]

theorem guardedFields (k : String) (v : Json) (f : String × Json) (rest : List (String × Json)) :
    guardClosing (lineFields ((k, v) :: f :: rest)) =
      guardClosing (lineFields [(k, v)]) ++ ',' :: ' ' :: guardClosing (lineFields (f :: rest)) := by
  have line : lineFields ((k, v) :: f :: rest) = lineFields [(k, v)] ++ ',' :: ' ' :: lineFields (f :: rest) := by
    rw [lineFields, lineFields]
    simp
  rw [line, guardApart (by decide) (by decide), guardOther (by decide)]

section

variable (stack : List Frame) (v : Json) (rest : List Char)

theorem readText (s : String) : Reads (.text s) := by
  intro stack rest
  have cut : guarded (.text s) ++ rest = '"' :: (guardClosing (s.toList.flatMap escapeRaw) ++ '"' :: rest) := by
    rw [guarded, lineChars, guardedText, List.cons_append, List.cons_append, List.append_assoc]
    rfl
  rw [cut, readValue]
  split
  · rename_i stop refused
    rw [readGuarded] at refused
    cases refused
  · rename_i t after read
    rw [readGuarded] at read
    cases read
    rw [List.reverse_nil, List.nil_append, String.ofList_toList]

theorem readWord {v : Json} {c : Char} {s rest : List Char} (apart : c ∉ ['"', '[', '\x7b'])
    (read : readPlain (c :: s) = some (.ok v, rest)) : readValue stack (c :: s) = close stack v rest := by
  simp only [List.mem_cons, List.not_mem_nil, or_false, not_or] at apart
  rw [readValue]
  · split <;> rename_i found <;> cases read.symm.trans found
    rfl
  · rintro more ⟨⟩
    exact apart.1 rfl
  · rintro more ⟨⟩
    exact apart.2.1 rfl
  · rintro more ⟨⟩
    exact apart.2.2 rfl

theorem readEmptyArray : readValue stack ('[' :: ']' :: rest) = close stack (.array []) rest := by
  rw [readValue]
  rfl

theorem readEmptyObject : readValue stack ('\x7b' :: '\x7d' :: rest) = close stack (.object []) rest := by
  rw [readValue]
  rfl

theorem readArray {s : List Char} (opens : Opens s) :
    readValue stack ('[' :: s) = readValue (.array [] :: stack) s := by
  rw [readValue]
  split
  · rename_i after here
    exact absurd here (opens.unclosed after).1
  · rw [opens.skip.1]

theorem readObject {s : List Char} (opens : Opens s) : readValue stack ('\x7b' :: s) = readField stack [] s := by
  rw [readValue]
  split
  · rename_i after here
    exact absurd here (opens.unclosed after).2
  · rw [opens.skip.1]

theorem closeArray (items : List Json) :
    close (.array items :: stack) v (']' :: rest) = close stack (.array (v :: items).reverse) rest := by
  rw [close]
  rfl

theorem nextItem (items : List Json) {s : List Char} (opens : Opens s) :
    close (.array items :: stack) v (',' :: ' ' :: s) = readValue (.array (v :: items) :: stack) s := by
  have next : close (.array items :: stack) v (',' :: ' ' :: s) =
      readValue (.array (v :: items) :: stack) (skipBlanks (' ' :: s)) := by
    rw [close]
    rfl
  rw [next, opens.skip.2]

theorem closeObject (fields : List (String × Json)) (key : String) :
    close (.object fields key :: stack) v ('\x7d' :: rest) =
      close stack (.object (Table.set key v fields)) rest := by
  rw [close]
  rfl

theorem nextField (fields : List (String × Json)) (key : String) {s : List Char} (opens : Opens s) :
    close (.object fields key :: stack) v (',' :: ' ' :: s) = readField stack (Table.set key v fields) s := by
  have next : close (.object fields key :: stack) v (',' :: ' ' :: s) =
      readField stack (Table.set key v fields) (skipBlanks (' ' :: s)) := by
    rw [close]
    rfl
  rw [next, opens.skip.2]

end

theorem readKey (stack : List Frame) (fields : List (String × Json)) (key : String) {s : List Char} (opens : Opens s) :
    readField stack fields ('"' :: (guardClosing (key.toList.flatMap escapeRaw) ++ '"' :: ':' :: ' ' :: s)) =
      readValue (.object fields key :: stack) s := by
  rw [readField]
  split
  · rename_i stop refused
    rw [readGuarded] at refused
    cases refused
  · rename_i t after read
    rw [readGuarded] at read
    cases read
    split
    · rename_i more here
      obtain rfl : ' ' :: s = more := List.tail_eq_of_cons_eq here
      rw [opens.skip.2, List.reverse_nil, List.nil_append, String.ofList_toList]
    · rename_i apart
      exact absurd rfl (apart (' ' :: s))

theorem itemsOpen {v : Json} (opens : Opens (guarded v)) (items : List Json) :
    Opens (guardClosing (lineItems (v :: items))) := by
  cases items with
  | nil => exact opens
  | cons w items =>
    rw [guardedItems]
    exact opens.append _

theorem fieldsOpen (f : String × Json) (fields : List (String × Json)) :
    Opens (guardClosing (lineFields (f :: fields))) := by
  obtain ⟨k, v⟩ := f
  have first : Opens (guardClosing (lineFields [(k, v)])) := ⟨_, _, guardedField k v, by decide⟩
  cases fields with
  | nil => exact first
  | cons f fields =>
    rw [guardedFields]
    exact first.append _

theorem readItems {v : Json} {items : List Json} (opens : ∀ w ∈ v :: items, Opens (guarded w))
    (reads : ∀ w ∈ v :: items, Reads w) (stack : List Frame) (done : List Json) (rest : List Char) :
    readValue (.array done :: stack) (guardClosing (lineItems (v :: items)) ++ ']' :: rest) =
      close stack (.array (done.reverse ++ v :: items)) rest := by
  have read := reads v List.mem_cons_self
  induction items generalizing v done with
  | nil => rw [lineItems, ← guarded, read, closeArray, List.reverse_cons]
  | cons w items ih =>
    have later : ∀ u ∈ w :: items, u ∈ v :: w :: items := fun _ => List.mem_cons_of_mem v
    have next : Opens (guardClosing (lineItems (w :: items)) ++ ']' :: rest) :=
      (itemsOpen (opens w (by simp)) items).append _
    rw [guardedItems, List.append_assoc, List.cons_append, List.cons_append, read, nextItem stack v done next,
      ih (fun u mem => opens u (later u mem)) (fun u mem => reads u (later u mem)) (v :: done) (reads w (by simp))]
    simp

theorem setNew {key : String} {v : Json} {done fields : List (String × Json)}
    (distinct : ((done ++ (key, v) :: fields).map (·.1)).Nodup) : Table.set key v done = done ++ [(key, v)] := by
  induction done with
  | nil => rfl
  | cons e done ih =>
    rw [List.cons_append, List.map_cons, List.nodup_cons] at distinct
    have other : e.1 ≠ key := by
      rintro rfl
      exact distinct.1 (by simp)
    rw [Table.set, if_neg other, ih distinct.2, List.cons_append]

theorem readEntry {key : String} {v : Json} (opens : Opens (guarded v)) (reads : Reads v) (stack : List Frame)
    (done : List (String × Json)) (rest : List Char) :
    readField stack done (guardClosing (lineFields [(key, v)]) ++ rest) = close (.object done key :: stack) v rest := by
  rw [guardedField, List.cons_append, List.append_assoc]
  exact (readKey stack done key (opens.append rest)).trans (reads _ rest)

theorem readFields {f : String × Json} {fields done : List (String × Json)}
    (distinct : ((done ++ f :: fields).map (·.1)).Nodup) (opens : ∀ e ∈ f :: fields, Opens (guarded e.2))
    (reads : ∀ e ∈ f :: fields, Reads e.2) (stack : List Frame) (rest : List Char) :
    readField stack done (guardClosing (lineFields (f :: fields)) ++ '\x7d' :: rest) =
      close stack (.object (done ++ f :: fields)) rest := by
  induction fields generalizing f done with
  | nil =>
    obtain ⟨key, v⟩ := f
    rw [readEntry (opens _ List.mem_cons_self) (reads _ List.mem_cons_self), closeObject, setNew distinct]
  | cons e fields ih =>
    obtain ⟨key, v⟩ := f
    have later : ∀ u ∈ e :: fields, u ∈ (key, v) :: e :: fields := fun _ => List.mem_cons_of_mem _
    have next : Opens (guardClosing (lineFields (e :: fields)) ++ '\x7d' :: rest) := (fieldsOpen e fields).append _
    have left : ((done ++ [(key, v)] ++ e :: fields).map (·.1)).Nodup := by simpa using distinct
    rw [guardedFields, List.append_assoc, List.cons_append, List.cons_append,
      readEntry (opens _ List.mem_cons_self) (reads _ List.mem_cons_self), nextField stack v done key next,
      setNew distinct, ih left (fun u mem => opens u (later u mem)) (fun u mem => reads u (later u mem))]
    simp

theorem Worded.reads {v : Json} (worded : Worded v) : Reads v := by
  induction worded with
  | null =>
    intro stack rest
    exact readWord stack (by decide) rfl
  | bool value =>
    intro stack rest
    cases value <;> exact readWord stack (by decide) rfl
  | text value => exact readText value
  | @array items each ih =>
    intro stack rest
    rw [guardedArray]
    cases items with
    | nil => exact readEmptyArray stack rest
    | cons v items =>
      have opens := fun w mem => (each w mem).opens
      rw [List.cons_append, List.cons_append, List.append_assoc,
        readArray stack ((itemsOpen (opens v List.mem_cons_self) items).append _)]
      exact readItems opens ih stack [] rest
  | @object fields distinct each ih =>
    intro stack rest
    rw [guardedObject]
    cases fields with
    | nil => exact readEmptyObject stack rest
    | cons f fields =>
      have opens := fun e mem => (each e mem).opens
      rw [List.cons_append, List.cons_append, List.append_assoc, readObject stack ((fieldsOpen f fields).append _)]
      exact readFields distinct opens ih stack rest

section

variable {s t : List Char}

theorem Printed.append (first : Printed s) (second : Printed t) : Printed (s ++ t) :=
  List.forall_mem_append.mpr ⟨first, second⟩

theorem Printed.cons {c : Char} (first : 0x20 ≤ c.toNat) (second : Printed s) : Printed (c :: s) :=
  List.forall_mem_cons.mpr ⟨first, second⟩

end

theorem stringPrinted (s : String) : Printed (writeString escapeRaw s) := by
  refine .append (.cons (by decide) ?_) (by decide)
  intro c mem
  obtain ⟨d, -, inside⟩ := List.mem_flatMap.mp mem
  exact escapePrinted d c inside

theorem itemsPrinted {items : List Json} (each : ∀ v ∈ items, Printed (lineChars v)) : Printed (lineItems items) := by
  induction items with
  | nil => exact List.forall_mem_nil _
  | cons v items ih =>
    obtain ⟨here, later⟩ := List.forall_mem_cons.mp each
    cases items with
    | nil => exact here
    | cons w items => exact here.append (.cons (by decide) (.cons (by decide) (ih later)))

theorem fieldsPrinted {fields : List (String × Json)} (each : ∀ f ∈ fields, Printed (lineChars f.2)) :
    Printed (lineFields fields) := by
  induction fields with
  | nil => exact List.forall_mem_nil _
  | cons f fields ih =>
    obtain ⟨here, later⟩ := List.forall_mem_cons.mp each
    have field : Printed (writeString escapeRaw f.1 ++ ':' :: ' ' :: lineChars f.2) :=
      (stringPrinted f.1).append (.cons (by decide) (.cons (by decide) here))
    cases fields with
    | nil => exact field
    | cons e fields => exact field.append (.cons (by decide) (.cons (by decide) (ih later)))

theorem Worded.printed {v : Json} (worded : Worded v) : Printed (lineChars v) := by
  induction worded with
  | null => decide
  | bool value => cases value <;> decide
  | text value => exact stringPrinted value
  | array each ih => exact .append (.cons (by decide) (itemsPrinted ih)) (by decide)
  | object distinct each ih => exact .append (.cons (by decide) (fieldsPrinted ih)) (by decide)

theorem Worded.inlinePrinted {v : Json} (worded : Worded v) : Printed v.inline.toList := by
  rw [inline, String.toList_ofList]
  intro c mem
  rcases guardMem mem with rfl | inside
  · decide
  · exact worded.printed c inside

theorem Worded.parsed {v : Json} (worded : Worded v) : parse v.inline = .ok v := by
  have marked : (guarded v).head? ≠ some '\ufeff' := by
    obtain ⟨c, rest, same, mem⟩ := worded.opens
    rw [same]
    rintro ⟨⟩
    exact absurd mem (by decide)
  have read : readValue [] (guarded v) = .ok (v, []) := by
    have whole := worded.reads [] []
    rwa [List.append_nil, close] at whole
  have chars : parseChars (guarded v) = .ok v := by
    rw [parseChars, if_neg marked, worded.opens.skip.1, read]
    rfl
  have text : v.inline.toList = guarded v := String.toList_ofList
  rw [parse, text, chars]

structure Embedded (v : Json) (text : String) : Prop where
  oneLine : '\n' ∉ text.toList
  unclosed : ¬ ['<', '/'] <:+: text.toList
  decoded : parse text = .ok v

theorem Worded.embedded {v : Json} (worded : Worded v) : Embedded v v.inline := by
  have text : v.inline.toList = guardClosing (lineChars v) := String.toList_ofList
  constructor
  case oneLine => exact fun line => absurd (worded.inlinePrinted '\n' line) (by decide)
  case unclosed => exact text ▸ guardUnclosed _
  case decoded => exact worded.parsed

end FlowAtlas.Json
