import ResourceStubs.Method
import ResourceStubs.Proofs.Json.EditedUnits

/-!
# Whole numbers in documents

A number passes three limits on its way from a document into a class. Its digits are gathered into
64 bits without a sign; with its sign it has to fit in 64 bits; and the place where it stands asks
for 32 bits or for 64 bits with a sign. What misses one of the first two limits is rounded, but then
it is no whole number any more, and no place takes it. So a whole number comes out with the digits
it was written with, or it is refused.

Which numbers are read as whole numbers at all is known from their numerals
(`Json.exists_number_ofInt`). A place that takes a range of them takes exactly this range
(`Json.bind_eq_of_integerOf`), and there are two kinds of places: the code of a status
(`Json.yields_int32_ofInt`) and an argument (`Json.yields_literal_ofInt`).
-/

namespace ResourceStubs.Json

/-! ## The two kinds of places -/

/-- A place that takes a range of whole numbers of 64 bits takes exactly those of its range. -/
lemma bind_eq_of_integerOf {α : Type} {f : Number → Option α} {low high : Int} {make : Int → α}
    (hf : ∀ number, f number =
      (integerOf number).bind fun n => if low ≤ n ∧ n < high then some (make n) else none)
    (hlow : -Int.pow 2 63 ≤ low) (hhigh : high ≤ Int.pow 2 64) {value : Option Number} {n : Int}
    (hvalue : value.bind integerOf =
      if -Int.pow 2 63 ≤ n ∧ n < Int.pow 2 64 then some n else none) :
    value.bind f = if low ≤ n ∧ n < high then some (make n) else none := by
  have hbind : value.bind f =
      (value.bind integerOf).bind fun n => if low ≤ n ∧ n < high then some (make n) else none := by
    rw [Option.bind_assoc]
    exact Option.bind_congr fun number _ => hf number
  rw [hbind, hvalue]
  by_cases hrange : low ≤ n ∧ n < high
  · have hwide : -Int.pow 2 63 ≤ n ∧ n < Int.pow 2 64 := by omega
    rw [if_pos hwide, Option.bind_some]
  · rw [if_neg hrange]
    split
    · exact if_neg hrange
    · rfl

/-- A status takes whole numbers of 32 bits. -/
lemma yields_int32_ofInt (n : Int) (depth : Nat) :
    Yields (int32 depth) (.number (.ofInt n))
      (if -Int.pow 2 31 ≤ n ∧ n < Int.pow 2 31 then some (Int32.ofInt n) else none) := by
  obtain ⟨value, hnumber, hvalue⟩ := exists_number_ofInt n
  have hfits : value.bind int32Of = _ :=
    bind_eq_of_integerOf (fun number => by cases number <;> rfl) (by decide) (by decide) hvalue
  rw [← hfits]
  exact yields_int32_number hnumber depth

/-- An argument takes whole numbers of 64 bits with a sign. -/
lemma yields_literal_ofInt (n : Int) (depth : Nat) :
    Yields (literal depth) (.number (.ofInt n))
      (if -Int.pow 2 63 ≤ n ∧ n < Int.pow 2 63 then some (.int (Int64.ofInt n)) else none) := by
  obtain ⟨value, hnumber, hvalue⟩ := exists_number_ofInt n
  have hfits : value.bind literalOf = _ :=
    bind_eq_of_integerOf (fun number => by cases number <;> rfl) (by decide) (by decide) hvalue
  have hsingle : (value.bind fun number => some (literalOf number)).bind id =
      value.bind literalOf :=
    Option.bind_assoc ..
  rw [← hfits, ← hsingle]
  refine yields_literal (by simp) (by simp) (fun text rest htext hrest => ?_) depth
  cases htext
  exact gives_singleLiteral_number (hnumber rest hrest)

/-! ## Documents -/

section Documents

variable {α β : Type} {t : Tree}

lemma Yields.map {step : Read α} {value : Option α} (h : Yields step t value) (f : α → β) :
    Yields (f <$> step) t (value.map f) := by
  intro text blank rest htext hblank hrest
  rw [map_eq_pure_bind, Option.map_eq_bind]
  exact (h htext hblank hrest).bind fun a _ => gives_some (f a) rest

/-- A document is read exactly if the reader gives a value for its tree. -/
lemma read_eq_ok_iff {reader : Reader α} {text : String} (htext : t.IsDocument text.toList)
    {value : Option α} (h : Yields (reader nestingLimit) t value) {a : α} :
    read reader text = .ok a ↔ value = some a := by
  constructor
  · intro hread
    exact h.eq_of_seen (seen_of_read htext hread)
  · rintro rfl
    exact read_of_reads htext h.reads

end Documents

/-- The object with a status takes whole numbers of 32 bits. -/
lemma read_status_iff {n : Int} {key : List Part} (hkey : keyText key = some "status")
    {text : String} (htext : (Tree.object [(key, .number (.ofInt n))]).IsDocument text.toList)
    {m : Modifier} :
    read UnitShape.modifier text = .ok m ↔
      (-Int.pow 2 31 ≤ n ∧ n < Int.pow 2 31) ∧ m = .status (Int32.ofInt n) := by
  have hdata : Yields (caseData (.value (Format.map Modifier.status int32)) 126)
      (.number (.ofInt n)) _ :=
    (yields_int32_ofInt n 126).map Modifier.status
  have hstatus : Yields ((UnitShape.modifier : Reader Modifier) nestingLimit) _ _ :=
    yields_choice_object hkey rfl hdata
  rw [read_eq_ok_iff htext hstatus, Option.map_eq_some_iff]
  constructor
  · rintro ⟨code, hcode, rfl⟩
    obtain ⟨hrange, hvalue⟩ := Option.ite_none_right_eq_some.1 hcode
    exact ⟨hrange, congrArg _ (Option.some.inj hvalue).symm⟩
  · rintro ⟨hrange, rfl⟩
    exact ⟨_, if_pos hrange, rfl⟩

lemma read_literal_iff {n : Int} {text : String}
    (htext : (Tree.number (.ofInt n)).IsDocument text.toList) {v : Literal} :
    read literal text = .ok v ↔
      (-Int.pow 2 63 ≤ n ∧ n < Int.pow 2 63) ∧ v = .int (Int64.ofInt n) := by
  rw [read_eq_ok_iff htext (yields_literal_ofInt n nestingLimit), Option.ite_none_right_eq_some,
    Option.some.injEq, eq_comm]

/-- The usual layout of a status is a document of its tree. -/
lemma isDocument_status (n : Int) :
    (Tree.object [(spell "status", .number (.ofInt n))]).IsDocument
      ("\x7b\"status\": " ++ toString n ++ "\x7d").toList := by
  refine ⟨[], _, [], isBlank_nil,
    ⟨_, ⟨[], [':', ' '], _, [], isBlank_nil, ?_, rfl, isBlank_nil, rfl⟩, rfl⟩, isBlank_nil, ?_⟩
  · exact ⟨[], [' '], isBlank_nil, by simp [IsBlank], rfl⟩
  · have hkey : quoted (spell "status") = "\"status\"".toList := by decide
    simp [hkey, Numeral.chars_ofInt, ← toList_toString_int]

lemma isDocument_toString (n : Int) : (Tree.number (.ofInt n)).IsDocument (toString n).toList :=
  ⟨[], _, [], isBlank_nil, rfl, isBlank_nil, by simp [Numeral.chars_ofInt, ← toList_toString_int]⟩

/-- Whole numbers of any size go through exactly or are refused. A document that is an object with a
status is read exactly if the number fits in 32 bits, and its marker shows the digits of the
document. A document that is an argument is read exactly if the number fits in 64 bits, as this
number, and both of its texts are the digits of the document. This holds of every layout of the
documents, of which the usual ones come first. -/
theorem integers_exact (n : Int) :
    (Tree.object [(spell "status", .number (.ofInt n))]).IsDocument
        ("\x7b\"status\": " ++ toString n ++ "\x7d").toList ∧
      (Tree.number (.ofInt n)).IsDocument (toString n).toList ∧
      (∀ (key : List Part) (text : String), keyText key = some "status" →
        (Tree.object [(key, .number (.ofInt n))]).IsDocument text.toList →
          ((∃ m, read UnitShape.modifier text = .ok m) ↔ -Int.pow 2 31 ≤ n ∧ n < Int.pow 2 31) ∧
          ∀ m, read UnitShape.modifier text = .ok m →
            m.marker = some ("@ResponseStatus(HttpStatus.valueOf(" ++ toString n ++ "))")) ∧
      ∀ text : String, (Tree.number (.ofInt n)).IsDocument text.toList →
        ((∃ v, read literal text = .ok v) ↔ -Int.pow 2 63 ≤ n ∧ n < Int.pow 2 63) ∧
        ∀ v, read literal text = .ok v →
          (∃ i : Int64, v = .int i ∧ i.toInt = n) ∧ v.display = toString n ∧
            v.raw = toString n := by
  refine ⟨isDocument_status n, isDocument_toString n, fun key text hkey htext => ?_,
    fun text htext => ?_⟩
  · refine ⟨?_, fun m hm => ?_⟩
    · simp only [read_status_iff hkey htext, exists_and_left, exists_eq, and_true]
    · obtain ⟨hrange, rfl⟩ := (read_status_iff hkey htext).1 hm
      have hcode : (Int32.ofInt n).toInt = n := Int32.toInt_ofInt_of_le hrange.1 hrange.2
      rw [Modifier.marker, hcode]
  · refine ⟨?_, fun v hv => ?_⟩
    · simp only [read_literal_iff htext, exists_and_left, exists_eq, and_true]
    · obtain ⟨hrange, rfl⟩ := (read_literal_iff htext).1 hv
      have hvalue : (Int64.ofInt n).toInt = n := Int64.toInt_ofInt_of_le hrange.1 hrange.2
      refine ⟨⟨_, rfl, hvalue⟩, ?_, ?_⟩
      · rw [Literal.display, hvalue]
      · rw [Literal.raw, hvalue]

theorem integers_exact_limits :
    (∃ m, read UnitShape.modifier "\x7b\"status\": -2147483648\x7d" = .ok m ∧
        m.marker = some "@ResponseStatus(HttpStatus.valueOf(-2147483648))") ∧
      (¬∃ m, read UnitShape.modifier "\x7b\"status\": 2147483648\x7d" = .ok m) ∧
      (∃ v, read literal "-9223372036854775808" = .ok v ∧ v.raw = "-9223372036854775808") ∧
      ¬∃ v, read literal "18446744073709551616" = .ok v := by
  refine ⟨?_, ?_, ?_, ?_⟩
  · obtain ⟨hdocument, -, hstatus, -⟩ := integers_exact (-2147483648)
    obtain ⟨hread, hmarker⟩ := hstatus _ _ (keyText_spell "status") hdocument
    obtain ⟨m, hm⟩ := hread.2 (by decide)
    exact ⟨m, hm, hmarker m hm⟩
  · obtain ⟨hdocument, -, hstatus, -⟩ := integers_exact 2147483648
    exact fun h => absurd ((hstatus _ _ (keyText_spell "status") hdocument).1.1 h) (by decide)
  · obtain ⟨-, hdocument, -, hargument⟩ := integers_exact (-9223372036854775808)
    obtain ⟨hread, htexts⟩ := hargument _ hdocument
    obtain ⟨v, hv⟩ := hread.2 (by decide)
    exact ⟨v, hv, (htexts v hv).2.2⟩
  · obtain ⟨-, hdocument, -, hargument⟩ := integers_exact 18446744073709551616
    exact fun h => absurd ((hargument _ hdocument).1.1 h) (by decide)

end ResourceStubs.Json
