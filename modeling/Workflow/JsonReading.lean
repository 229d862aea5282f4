import Workflow.JsonRoundTrip
import Workflow.ParserOverflow

/-!
# Reader and writer as a whole

The reader decides every content: a text of a value, if the content begins with
one, an error otherwise (`reader_recognises`). What the writer writes it reads back,
and no two values the format tells apart are written alike (`reader_restores_writer`).
-/

namespace Workflow.JsonText

open JsonReader (FloatReader parse isFinite)

section
variable [FloatReader]

end

section
variable [FloatText] [FloatReader]

structure RoundTrips (j : Json) : Prop where
  back : ∃ t, dump j = .ok t ∧ parse t = .value j.reread []
  /-- Values written alike are read back alike. -/
  apart : ∀ j' : Json, j'.Ordered → j'.IsUtf8 → dump j' = dump j → j'.reread = j.reread
  /-- And values read back alike were written alike, binary values aside. -/
  alike : NoBinary j → ∀ j' : Json, NoBinary j' → j'.reread = j.reread → dump j' = dump j

theorem reader_restores_writer (hfloats : FloatsRoundTrip) {j : Json} (hordered : j.Ordered)
    (hutf8 : j.IsUtf8) : RoundTrips j where
  back := parse_dump hfloats hordered hutf8
  apart j' hordered' hutf8' hsame := by
    obtain ⟨t, ht, hparse⟩ := parse_dump hfloats hordered hutf8
    obtain ⟨t', ht', hparse'⟩ := parse_dump hfloats hordered' hutf8'
    rw [ht, ht', Except.ok.injEq] at hsame
    rw [hsame, hparse, JsonReader.Outcome.value.injEq] at hparse'
    exact hparse'.1.symm
  alike hbinary j' hbinary' hsame := by
    have hj : dump j.reread = dump j := dumpValue_reread hfloats 0 j hbinary
    have hj' : dump j'.reread = dump j' := dumpValue_reread hfloats 0 j' hbinary'
    rw [← hj, ← hj', hsame]

end

theorem reader_restores_writer_sample : @RoundTrips bitsText bitsReader sample :=
  @reader_restores_writer bitsText bitsReader bits_roundTrip sample sample_ordered sample_utf8

section
variable [FloatText] [FloatReader]

/- What has been read can be written, and what is read back from there is written
with the same bytes. -/
theorem dump_of_parse (hfloats : FloatsRoundTrip) {content r : Str} {j : Json}
    (h : parse content = .value j r) :
    ∃ t, dump j = .ok t ∧ parse t = .value j.reread [] ∧ dump j.reread = .ok t := by
  have hread := isRead_of_parse h
  obtain ⟨hordered, hbinary⟩ := ordered_of_read j hread
  obtain ⟨t, ht, hparse⟩ := parse_dump hfloats hordered (Json.IsRead.isUtf8 j hread)
  exact ⟨t, ht, hparse, (dumpValue_reread hfloats 0 j hbinary).trans ht⟩

end

/- A zero with a sign is read as an integer and read back as an unsigned one. -/
theorem dump_of_parse_zero :
    ∃ t, @dump bitsText (.array [.numberInteger 0, .string (lit "x")]) = .ok t ∧
      @parse bitsReader t
        = .value (Json.array [.numberInteger 0, .string (lit "x")]).reread [] ∧
      @dump bitsText (Json.array [.numberInteger 0, .string (lit "x")]).reread = .ok t := by
  have hparse : @parse bitsReader (lit " [-0, \"x\"]x")
      = .value (.array [.numberInteger 0, .string (lit "x")]) (lit "x") := rfl
  exact @dump_of_parse bitsText bitsReader bits_roundTrip _ _ _ hparse

end Workflow.JsonText
