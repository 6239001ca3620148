import Cellular.Proofs.Grammar.Scanner
import Cellular.Proofs.Reply.Registration
import Cellular.Proofs.Text.Blank
import Cellular.Proofs.Unsolicited.Digest
import Cellular.Unsolicited.Code
/-!
# Codes are found and read as they are written

Two recognisers stand between a line and its code: the digest finds the line in the stream, and
`Urc.read?` tells which code it is.  `Urc.Renders` says how codes are written.  Every line written
so passes both, and so no code is lost between them.  The digest goes by the name alone; the reader
tries context reports and indicator events first, so for every other line it has to be seen that
they refuse it (`read?_plain`).

In four steps: what may stand in a line (names of indicators, hexadecimal texts, numbers), how codes
are written, that the line is found, and that it is read.  The renderings are a relation, since most
codes can be written in several ways: optional fields may be there or not, and further octets may
stand behind a context report.  That there is a rendering at all is said as well (`exists_renders`),
so the theorem is about something for every code that fits.
-/

namespace Cellular

open Bytes

/-! ## Names of indicators

A name may have anything in it that does not end its field or its line.  It is a text and not a list
of octets, so what is not in it as a character has to be seen not to be in it as an octet. -/

/-- A name of an indicator that modems may send. -/
structure IndicatorName (s : String) : Prop where
  nonempty : s.toList ≠ []
  trimmed : Text.trim s.toList = s.toList
  plain : ∀ c ∈ ['"', ',', '\r', '\n'], c ∉ s.toList
  length : (ofString s).length ≤ 16

namespace IndicatorName

variable {s : String}

theorem not_mem (h : IndicatorName s) {b : UInt8} (hascii : b < 128)
    (hb : Char.ofNat b.toNat ∈ ['"', ',', '\r', '\n']) :
    b ∉ ofString s := fun hmem => h.plain _ hb (mem_of_mem_ofChars hmem hascii)

theorem octets_ne_nil (h : IndicatorName s) : ofString s ≠ [] := ofChars_ne_nil h.nonempty

/-- A name begins with no spacing. -/
theorem parts_pad (h : IndicatorName s) : Parts isPad (ofString s) := by
  obtain ⟨c, cs, hcs⟩ := List.exists_cons_of_ne_nil h.nonempty
  have htrim := h.trimmed
  rw [hcs] at htrim
  intro b hb
  rw [ofString, hcs] at hb
  rw [Bool.eq_false_iff]
  intro hpad
  have hpads : b = 32 ∨ b = 9 := by simpa [isPad] using hpad
  -- both kinds of spacing are blank characters, and the name is trimmed
  obtain ⟨hascii, hblank⟩ : b < 128 ∧ Text.isBlank (Char.ofNat b.toNat) = true := by
    rcases hpads with rfl | rfl <;> decide
  rw [← mem_of_mem_encode (mem_encode_of_head hb) hascii, Text.isBlank_of_trim htrim] at hblank
  exact absurd hblank (by decide)

theorem parts_quote (h : IndicatorName s) : Parts (· == quote) (ofString s) :=
  parts_of_forall fun b hb => beq_eq_false_iff_ne.mpr fun heq =>
    h.not_mem (b := quote) (by decide) (by decide) (heq ▸ hb)

/-- Nothing in a name ends a bare field. -/
theorem endsBare_of_mem (h : IndicatorName s) {b : UInt8} (hb : b ∈ ofString s) :
    Scanner.endsBare b = false := by
  rw [Bool.eq_false_iff]
  intro hends
  have hmem : b = 44 ∨ b = 13 ∨ b = 10 := by simpa [Scanner.endsBare, isLineBreak] using hends
  obtain ⟨hascii, hchar⟩ : b < 128 ∧ Char.ofNat b.toNat ∈ ['"', ',', '\r', '\n'] := by
    rcases hmem with rfl | rfl | rfl <;> decide
  exact h.not_mem hascii hchar hb

end IndicatorName

namespace Urc

/-! ## How codes are written

A header is a name, a colon and a space.  Every code but the bare names has one, and what is
reported stands behind it. -/

/-- A name, a colon and a space, and what is reported. -/
def header (name : String) (body : Bytes) : Bytes := ofString name ++ 58 :: 32 :: body

/-- A further field that a context report may end with: any octets on the line that are one field,
up to the last of it. -/
structure Extra (x : Bytes) : Prop where
  comma : 44 ∉ x
  line : 13 ∉ x
  back : Parts isSpace x.reverse

/-- What is reported of a context. -/
def contextBody (cid status : Nat) (extra : Option Bytes) : Bytes :=
  Decimal.digits cid ++ 44 :: (Decimal.digits status ++ Cursor.optionals [extra])

/-- What is reported of an indicator. -/
def indicatorBody (name : String) (value : Nat) : Bytes :=
  ofString name ++ 44 :: Decimal.digits value

/-- The lines that a code is written as. -/
inductive Renders : Urc → Bytes → Prop
  | network {r : RegistrationReport} (h : r.Proper) :
      Renders (network (.ofCode r.stat)) (header "+CREG" r.text)
  | gprs {r : RegistrationReport} (h : r.Proper) :
      Renders (gprs (.ofCode r.stat)) (header "+CGREG" r.text)
  | eps {r : RegistrationReport} (h : r.Proper) :
      Renders (eps (.ofCode r.stat)) (header "+CEREG" r.text)
  | context {cid status : Nat} {extra : Option Bytes} (hcid : cid < Decimal.word32)
      (hstatus : status < Decimal.word32)
      (hextra : ∀ x, extra = some x → Extra x) :
      Renders (context cid (.ofCode status)) (header "%IPDPACT" (contextBody cid status extra))
  | shutdown : Renders shutdown (ofString "^SHUTDOWN")
  | indicator {name : String} {value : Nat} (hname : IndicatorName name)
      (hvalue : value < Decimal.word32) :
      Renders (indicator name value) (header "+CIEV" (indicatorBody name value))
  | systemMode {stat : Nat} (h : stat < 256) :
      Renders (systemMode stat) (header "+CNSMOD" (Decimal.digits stat))

/-- Codes whose values fit. -/
def Fits : Urc → Prop
  | context cid state => cid < Decimal.word32 ∧ ∃ status < Decimal.word32, state = .ofCode status
  | indicator name value => IndicatorName name ∧ value < Decimal.word32
  | systemMode stat => stat < 256
  | network _ | gprs _ | eps _ | shutdown => True

/-- Every code whose values fit is written somehow. -/
theorem exists_renders {u : Urc} (h : u.Fits) : ∃ line, Renders u line := by
  -- every status has a code, and a report of the code alone is proper
  have hstatus : ∀ s : RegistrationStatus, ∃ r : RegistrationReport, r.Proper ∧
      s = .ofCode r.stat := fun s =>
    ⟨⟨s.code, none, none, none⟩, ⟨s.code_lt, nofun, nofun, nofun⟩, s.ofCode_code.symm⟩
  cases u with
  | network s =>
    obtain ⟨r, hr, rfl⟩ := hstatus s
    exact ⟨_, .network hr⟩
  | gprs s =>
    obtain ⟨r, hr, rfl⟩ := hstatus s
    exact ⟨_, .gprs hr⟩
  | eps s =>
    obtain ⟨r, hr, rfl⟩ := hstatus s
    exact ⟨_, .eps hr⟩
  | context cid state =>
    obtain ⟨hcid, status, hstatus, rfl⟩ := h
    exact ⟨header "%IPDPACT" (contextBody cid status none), .context hcid hstatus nofun⟩
  | shutdown => exact ⟨_, .shutdown⟩
  | indicator name value => exact ⟨_, .indicator h.1 h.2⟩
  | systemMode stat => exact ⟨_, .systemMode h⟩

/-! ## Lines are found

A line is found if it begins with the name of a code, has no carriage return in it, and is tight;
the last is needed because the line comes back with white space trimmed. -/

/-- The names of codes begin with no white space. -/
theorem names_front :
    ∀ name ∈ Digest.codes.map Prod.fst, name.head?.all (!isSpace ·) = true ∧ name ≠ [] := by
  decide

/-- A line with a header is tight if it does not end with white space. -/
theorem tight_header {name : String} {body : Bytes} {accepts : Bytes → Bool}
    (hmem : (ofString name, accepts) ∈ Digest.codes) (hback : Parts isSpace body.reverse)
    (hne : body ≠ []) : Tight (header name body) := by
  obtain ⟨hfront, hname⟩ := names_front _ (List.mem_map_of_mem hmem)
  have hend : Parts isSpace ([58, 32] ++ body).reverse := back_append hback hne
  exact tight_append (parts_of_head hfront) hname hend nofun

/-- The line is found in the stream, whole and alone, whatever follows. -/
def Found (line : Bytes) : Prop :=
  ∀ rest, Digest.ofStream (Digest.framing line rest) = .line line (line.length + 4)

/-- A line with the name of a code is found, if it counts. -/
theorem found_header {name : String} {body : Bytes} {accepts : Bytes → Bool}
    (hmem : (ofString name, accepts) ∈ Digest.codes) (hline : 13 ∉ body)
    (hback : Parts isSpace body.reverse) (hne : body ≠ [])
    (haccepts : accepts (header name body) = true) : Found (header name body) := by
  have hinner : 13 ∉ 32 :: body := List.not_mem_cons_of_ne_of_not_mem (by decide) hline
  exact Digest.ofStream_colon hmem hinner (tight_header hmem hback hne) haccepts

/-- The codes that count whatever stands on their line. -/
theorem mem_codes {name : String}
    (h : name ∈ ["+CREG", "+CGREG", "+CEREG", "%IPDPACT", "+CIEV", "^SHUTDOWN"]) :
    (ofString name, fun _ => true) ∈ Digest.codes := by
  simp only [List.mem_cons, List.not_mem_nil, or_false] at h
  rcases h with rfl | rfl | rfl | rfl | rfl | rfl <;> simp [Digest.codes]

/-- The code that counts only without a comma on its line. -/
theorem mode_mem_codes : (ofString "+CNSMOD", fun l => !l.contains 44) ∈ Digest.codes :=
  .tail _ (.tail _ (.tail _ (.head _)))

theorem back_digits (n : Nat) : Parts isSpace (Decimal.digits n).reverse :=
  parts_of_forall fun _ hb => Decimal.isSpace_of_mem_digits (List.mem_reverse.mp hb)

theorem line_digits (n : Nat) : 13 ∉ Decimal.digits n :=
  fun hb => absurd (Decimal.isSpace_of_mem_digits hb) (by decide)

theorem comma_digits (n : Nat) : 44 ∉ Decimal.digits n := fun hb =>
  absurd (Decimal.isDigit_of_mem_digits hb) (by decide)

theorem back_report {r : RegistrationReport} (h : r.Proper) : Parts isSpace r.text.reverse :=
  parts_of_forall fun _ hb => RegistrationReport.isSpace_of_mem_text h (List.mem_reverse.mp hb)

/-- A registration report is found. -/
theorem found_report {name : String} {r : RegistrationReport} (h : r.Proper)
    (hname : name ∈ ["+CREG", "+CGREG", "+CEREG"]) : Found (header name r.text) := by
  have hline : 13 ∉ r.text :=
    fun hb => absurd (RegistrationReport.isSpace_of_mem_text h hb) (by decide)
  have hmem : (ofString name, fun _ => true) ∈ Digest.codes :=
    mem_codes (List.mem_append_left _ hname)
  exact found_header hmem hline (back_report h) (RegistrationReport.opens_text r).ne_nil rfl

/-- A context report is found, with or without a third field. -/
theorem found_context {extra : Option Bytes} (hextra : ∀ x, extra = some x → Extra x)
    (cid status : Nat) :
    Found (header "%IPDPACT" (contextBody cid status extra)) := by
  have hfields : 13 ∉ Cursor.optionals [extra] := by
    intro hmem
    obtain hcomma | ⟨x, hx, hmem⟩ := Cursor.mem_optionals hmem
    · exact absurd hcomma (by decide)
    · exact (hextra x (List.mem_singleton.mp hx).symm).line hmem
  have hline : 13 ∉ contextBody cid status extra := by
    simp only [contextBody, List.mem_append, List.mem_cons, not_or]
    exact ⟨line_digits cid, by decide, line_digits status, hfields⟩
  -- the body ends in a digit or in what an extra field ends in, hence not in spacing
  have hend : Parts isSpace (Decimal.digits status ++ Cursor.optionals [extra]).reverse := by
    cases extra with
    | none =>
      rw [Cursor.optionals_eq_nil rfl, List.append_nil]
      exact back_digits status
    | some x =>
      rw [Cursor.optionals_singleton]
      exact back_cons (hextra x rfl).back rfl
  exact found_header (mem_codes (by simp)) hline (back_cons hend rfl) (by simp [contextBody]) rfl

/-- An indicator event is found. -/
theorem found_indicator {name : String} (hname : IndicatorName name) (value : Nat) :
    Found (header "+CIEV" (indicatorBody name value)) := by
  have hline : 13 ∉ indicatorBody name value := by
    simp only [indicatorBody, List.mem_append, List.mem_cons, not_or]
    exact ⟨hname.not_mem (by decide) (by decide), by decide, line_digits value⟩
  exact found_header (mem_codes (by simp)) hline (back_cons (back_digits value) rfl)
    (by simp [indicatorBody]) rfl

/-- A report of the system mode is found. -/
theorem found_mode (stat : Nat) : Found (header "+CNSMOD" (Decimal.digits stat)) := by
  have hname : 44 ∉ ofString "+CNSMOD" := by decide
  -- the comma guard lets a single value pass
  have hcomma : 44 ∉ header "+CNSMOD" (Decimal.digits stat) := by
    simp only [header, List.mem_append, List.mem_cons, not_or]
    exact ⟨hname, by decide, by decide, comma_digits stat⟩
  have haccepts : (!(header "+CNSMOD" (Decimal.digits stat)).contains 44) = true := by
    simpa using hcomma
  exact found_header mode_mem_codes (line_digits stat) (back_digits stat)
    (Decimal.digits_ne_nil stat) haccepts

/-- The reply to a query of the system mode is not. -/
theorem query_not_found (n stat : Nat) (rest : Bytes) :
    Digest.ofStream
      (Digest.framing (header "+CNSMOD" (Decimal.digits n ++ 44 :: Decimal.digits stat)) rest) =
      .noMatch := by
  have hline : 13 ∉ 32 :: (Decimal.digits n ++ 44 :: Decimal.digits stat) := by
    simp only [List.mem_append, List.mem_cons, not_or]
    exact ⟨by decide, line_digits n, by decide, line_digits stat⟩
  have htight : Tight (header "+CNSMOD" (Decimal.digits n ++ 44 :: Decimal.digits stat)) :=
    tight_header mode_mem_codes (back_cons (back_digits stat) rfl) (by simp)
  have haccepts :
      (!(header "+CNSMOD" (Decimal.digits n ++ 44 :: Decimal.digits stat)).contains 44) =
        false := by
    simp [header]
  exact Digest.ofStream_refused mode_mem_codes hline htight haccepts rest

/-- Every line that a code is written as is found. -/
theorem Renders.found {u : Urc} {line : Bytes} (h : Renders u line) : Found line := by
  cases h with
  | network h => exact found_report h (by simp)
  | gprs h => exact found_report h (by simp)
  | eps h => exact found_report h (by simp)
  | context _ _ hextra => exact found_context hextra _ _
  | shutdown =>
    have hmem : (ofString "^SHUTDOWN", fun _ => true) ∈ Digest.codes := mem_codes (by simp)
    have htight : Tight (ofString "^SHUTDOWN") :=
      ⟨parts_of_head (by decide), parts_of_head (by decide +kernel)⟩
    exact Digest.ofStream_bare hmem htight rfl
  | indicator hname _ => exact found_indicator hname _
  | systemMode _ => exact found_mode _

/-! ## Lines are read

The reader asks three questions in order: is it a context report, is it an indicator event, and what
is its name.  A line is sent the first way that takes it, so for a line of the third kind the first
two have to refuse it. -/

/-- A line that differs from a tag has no tagged fields. -/
theorem taggedFields?_eq_none {tag name : Bytes} {capacity : Nat} (hpads : Parts isPad name)
    (hne : name ≠ []) (h : Digest.expect tag name = .differs) (rest : Bytes) :
    Scanner.taggedFields? tag capacity (name ++ rest) = none := by
  rw [Scanner.taggedFields?, Scanner.tag_eq_none (hpads.append hne)
    (Digest.dropTag?_differs h rest)]
  rfl

/-- The names that are read last. -/
def plainNames : List String := ["+CREG", "+CGREG", "+CEREG", "+CNSMOD", "^SHUTDOWN"]

/-- Context reports and indicator events do not take what is read last. -/
theorem read?_plain {name : String} (h : name ∈ plainNames) (rest : Bytes) :
    read? (ofString name ++ rest) = namedLine? (ofString name ++ rest) := by
  have hnames : ∀ name ∈ plainNames, (ofString name).head?.all (!isPad ·) = true ∧
      ofString name ≠ [] ∧
      Digest.expect (ofString "%IPDPACT:") (ofString name) = .differs ∧
      Digest.expect (ofString "+CIEV:") (ofString name) = .differs := by decide
  -- each of them differs from both tags within its own length, so what follows does not matter
  obtain ⟨hpads, hne, hcontext, hindicator⟩ := hnames name h
  have hno : contextLine? (ofString name ++ rest) = none := by
    rw [contextLine?, taggedFields?_eq_none (parts_of_head hpads) hne hcontext]
    rfl
  have hno' : indicatorLine? (ofString name ++ rest) = none := by
    rw [indicatorLine?, taggedFields?_eq_none (parts_of_head hpads) hne hindicator]
    rfl
  rw [read?, hno, hno']
  rfl

/-- What stands before the first colon. -/
theorem codeName_header {name : String} (h : 58 ∉ ofString name) (body : Bytes) :
    codeName (header name body) = ofString name := by
  have hname : ∀ b ∈ ofString name, (b != 58) = true :=
    fun b hb => bne_iff_ne.mpr fun heq => h (heq ▸ hb)
  exact takeWhile_stretch hname (parts_cons rfl)

/-- The names of codes with values are headers of replies. -/
theorem header_names : ∀ name ∈ ["+CREG", "+CGREG", "+CEREG", "+CNSMOD"],
    (ofString name).head? = some 43 ∧ 58 ∉ ofString name := by decide

/-- The status of a registration report. -/
theorem reportStatus?_header {name : String} {r : RegistrationReport} (h : r.Proper)
    (hname : name ∈ ["+CREG", "+CGREG", "+CEREG"]) :
    reportStatus? (header name r.text) = some (.ofCode r.stat) := by
  obtain ⟨hhead, hcolon⟩ := header_names name (List.mem_append_left ["+CNSMOD"] hname)
  have hmem : (ofString name, fun _ => true) ∈ Digest.codes :=
    mem_codes (List.mem_append_left _ hname)
  have htight : Tight (header name r.text) :=
    tight_header hmem (back_report h) (RegistrationReport.opens_text r).ne_nil
  have hread : RegistrationReport.read? (header name r.text) = some r :=
    RegistrationReport.read?_text h hhead hcolon htight
  rw [reportStatus?, hread]
  rfl

/-- The value of a report of the system mode. -/
theorem octet?_header {stat : Nat} (h : stat < 256) :
    Cursor.octet? (header "+CNSMOD" (Decimal.digits stat)) = some stat := by
  obtain ⟨hhead, hcolon⟩ := header_names "+CNSMOD" (by simp)
  have hopens := Cursor.opens_digits stat
  have hstart : Cursor.start? (header "+CNSMOD" (Decimal.digits stat)) =
      some { rest := Decimal.digits stat } :=
    Cursor.start?_header hhead hcolon
      (tight_header mode_mem_codes (back_digits stat) hopens.ne_nil) hopens
  have hoctet : Cursor.octet { rest := Decimal.digits stat ++ [], begun := true } =
      some (stat, { rest := [], begun := true }) :=
    Cursor.octet_digits h parts_nil
  have hend : Cursor.atEnd { rest := [], begun := true } = true := rfl
  rw [List.append_nil] at hoctet
  rw [Cursor.octet?]
  simp only [hstart, Cursor.approach_first hopens, hoctet, hend, Option.bind_eq_bind,
    Option.bind_some, if_true]

/-- A registration report is read as one of the domain that its name tells. -/
theorem namedLine?_report {r : RegistrationReport} (h : r.Proper) :
    namedLine? (header "+CREG" r.text) = some (network (.ofCode r.stat)) ∧
    namedLine? (header "+CGREG" r.text) = some (gprs (.ofCode r.stat)) ∧
    namedLine? (header "+CEREG" r.text) = some (eps (.ofCode r.stat)) := by
  have hname : ∀ name ∈ ["+CREG", "+CGREG", "+CEREG"], codeName (header name r.text) =
      ofString name := fun name hmem =>
    codeName_header (header_names name (List.mem_append_left ["+CNSMOD"] hmem)).2 r.text
  -- the names are tried one after the other, so each has to differ from those before it
  have hother : ofString "+CGREG" ≠ ofString "+CREG" ∧ ofString "+CEREG" ≠ ofString "+CREG" ∧
      ofString "+CEREG" ≠ ofString "+CGREG" := by decide
  refine ⟨?_, ?_, ?_⟩
  · have hstatus : reportStatus? (header "+CREG" r.text) = some (.ofCode r.stat) :=
      reportStatus?_header h (by simp)
    simp only [namedLine?, hname "+CREG" (by simp), hstatus, if_true, Option.map_some]
  · have hstatus : reportStatus? (header "+CGREG" r.text) = some (.ofCode r.stat) :=
      reportStatus?_header h (by simp)
    simp only [namedLine?, hname "+CGREG" (by simp), hstatus, hother, if_true, if_false,
      Option.map_some]
  · have hstatus : reportStatus? (header "+CEREG" r.text) = some (.ofCode r.stat) :=
      reportStatus?_header h (by simp)
    simp only [namedLine?, hname "+CEREG" (by simp), hstatus, hother, if_true, if_false,
      Option.map_some]

/-- The first two fields of a context report are its numbers, with or without a third. -/
theorem fields_context (cid status : Nat) {extra : Option Bytes}
    (hextra : ∀ x, extra = some x → Extra x) :
    ∃ fields, Scanner.item? (Scanner.fields 3) (contextBody cid status extra) =
      some (Decimal.digits cid :: Decimal.digits status :: fields) := by
  have hpads : Parts isPad (Decimal.digits status ++ Cursor.optionals [extra]) :=
    (Scanner.parts_pad_digits status).append (Decimal.digits_ne_nil status)
  rw [contextBody, Scanner.fields_digits, Scanner.skipPads_parts hpads]
  cases extra with
  | none =>
    rw [Cursor.optionals_eq_nil rfl, List.append_nil, Scanner.fields_number status]
    exact ⟨[], rfl⟩
  | some x =>
    -- whatever the extra field holds, it is one field
    have hcomma : 44 ∉ Scanner.skipPads x :=
      fun hmem => (hextra x rfl).comma ((List.dropWhile_sublist _).mem hmem)
    obtain ⟨field, hfield⟩ : ∃ field, Scanner.item? (Scanner.fields 1) (Scanner.skipPads x) =
        some [field] :=
      Scanner.fields_last hcomma
    rw [Cursor.optionals_singleton, Scanner.fields_digits, hfield]
    exact ⟨[field], rfl⟩

/-- A context report is read, whatever its third field is. -/
theorem contextLine?_header {cid status : Nat} {extra : Option Bytes} (hcid : cid < Decimal.word32)
    (hstatus : status < Decimal.word32) (hextra : ∀ x, extra = some x → Extra x) :
    contextLine? (header "%IPDPACT" (contextBody cid status extra)) =
      some (context cid (.ofCode status)) := by
  have htag : ofString "%IPDPACT:" = ofString "%IPDPACT" ++ [58] := by decide
  have hname : (ofString "%IPDPACT").head?.all (!isPad ·) = true ∧
      ofString "%IPDPACT" ≠ [] := by decide
  obtain ⟨fields, hfields⟩ := fields_context cid status hextra
  have htagged : Scanner.taggedFields? (ofString "%IPDPACT:") 3
    (header "%IPDPACT" (contextBody cid status extra)) =
      some (Decimal.digits cid :: Decimal.digits status :: fields) := by
    have hcid' : Parts isPad (contextBody cid status extra) :=
      (Scanner.parts_pad_digits cid).append (Decimal.digits_ne_nil cid)
    rw [htag]
    exact (Scanner.taggedFields?_header (parts_of_head hname.1) hname.2 hcid').trans hfields
  rw [contextLine?, htagged]
  simp only [Option.bind_eq_bind, Option.bind_some, List.getElem?_cons_zero,
    List.getElem?_cons_succ, Scanner.number_digits hcid, Scanner.number_digits hstatus]
  rfl

/-- An indicator event is read. -/
theorem indicatorLine?_header {name : String} {value : Nat} (hname : IndicatorName name)
    (hvalue : value < Decimal.word32) :
    indicatorLine? (header "+CIEV" (indicatorBody name value)) = some (indicator name value) := by
  have htag : ofString "+CIEV:" = ofString "+CIEV" ++ [58] := by decide
  have hciev : (ofString "+CIEV").head?.all (!isPad ·) = true ∧ ofString "+CIEV" ≠ [] := by decide
  have hfields : Scanner.item? (Scanner.fields 2) (indicatorBody name value) =
      some [ofString name, Decimal.digits value] := by
    rw [indicatorBody, Scanner.fields_cons hname.parts_pad hname.octets_ne_nil hname.parts_quote
      (fun _ hb => hname.endsBare_of_mem hb),
      Scanner.skipPads_parts (Scanner.parts_pad_digits value), Scanner.fields_number value]
    rfl
  have htagged : Scanner.taggedFields? (ofString "+CIEV:") 2
    (header "+CIEV" (indicatorBody name value)) =
      some [ofString name, Decimal.digits value] := by
    have hpads : Parts isPad (indicatorBody name value) :=
      hname.parts_pad.append hname.octets_ne_nil
    rw [htag]
    exact (Scanner.taggedFields?_header (parts_of_head hciev.1) hciev.2 hpads).trans hfields
  -- the text of the field is trimmed, which takes nothing off a name
  have htext : Scanner.text? (ofString name) = some name.toList := by
    rw [Scanner.text?, ofString, chars?_ofChars, Option.map_some, hname.trimmed]
  have hclip : Scanner.clippedText? indicatorCapacity name.toList = some name := by
    have hlength : (ofChars name.toList).length ≤ indicatorCapacity := hname.length
    rw [Scanner.clippedText?, if_pos hlength, String.ofList_toList]
  rw [indicatorLine?, htagged]
  simp only [Option.bind_eq_bind, Option.bind_some, List.getElem?_cons_zero,
    List.getElem?_cons_succ, htext, hclip, Scanner.number_digits hvalue]
  rfl

/-- Every line that a code is written as is read as that code. -/
theorem Renders.read {u : Urc} {line : Bytes} (h : Renders u line) : read? line = some u := by
  cases h with
  | network h => exact (read?_plain (by simp [plainNames]) _).trans (namedLine?_report h).1
  | gprs h => exact (read?_plain (by simp [plainNames]) _).trans (namedLine?_report h).2.1
  | eps h => exact (read?_plain (by simp [plainNames]) _).trans (namedLine?_report h).2.2
  | context hcid hstatus hextra =>
    rw [read?, contextLine?_header hcid hstatus hextra]
    rfl
  | shutdown => decide
  | @indicator name value hname hvalue =>
    -- context reports are tried first, and their tag differs at once
    have hno : contextLine? (header "+CIEV" (indicatorBody name value)) = none := by
      have hciev : (ofString "+CIEV").head?.all (!isPad ·) = true ∧ ofString "+CIEV" ≠ [] ∧
          Digest.expect (ofString "%IPDPACT:") (ofString "+CIEV") = .differs := by decide
      rw [contextLine?, header, taggedFields?_eq_none (parts_of_head hciev.1) hciev.2.1 hciev.2.2]
      rfl
    rw [read?, hno, indicatorLine?_header hname hvalue]
    rfl
  | @systemMode stat h =>
    have hname : codeName (header "+CNSMOD" (Decimal.digits stat)) = ofString "+CNSMOD" :=
      codeName_header (header_names "+CNSMOD" (by simp)).2 _
    have hother : ofString "+CNSMOD" ≠ ofString "+CREG" ∧ ofString "+CNSMOD" ≠ ofString "+CGREG" ∧
        ofString "+CNSMOD" ≠ ofString "+CEREG" := by decide
    refine (read?_plain (by simp [plainNames]) _).trans ?_
    show namedLine? (header "+CNSMOD" (Decimal.digits stat)) = _
    simp only [namedLine?, hname, hother, octet?_header h, if_true, if_false, Option.map_some]

/-- Whatever line a code is written as, sending the line publishes the code. -/
theorem Renders.ofSentLine? {u : Urc} {line : Bytes} (h : Renders u line) :
    Urc.ofSentLine? line = some u := by
  have hfound : Digest.ofStream (lineEnd ++ line ++ lineEnd) = .line line (line.length + 4) := by
    rw [← List.append_nil (lineEnd ++ line ++ lineEnd)]
    exact h.found []
  rw [Urc.ofSentLine?, hfound]
  exact h.read

/-- The digest and the reader agree on every code: a code whose values fit is written somehow, and
however it is written the line is found, whole and alone, and read as the code.  The reply to a
query of the system mode is no code. -/
theorem lines_recognised :
    (∀ u : Urc, u.Fits → ∃ line, Renders u line) ∧
    (∀ (u : Urc) (line rest : Bytes), Renders u line →
      Digest.ofStream (Digest.framing line rest) = .line line (line.length + 4) ∧
      read? line = some u) ∧
    ∀ (n stat : Nat) (rest : Bytes),
      Digest.ofStream
        (Digest.framing (header "+CNSMOD" (Decimal.digits n ++ 44 :: Decimal.digits stat)) rest) =
          .noMatch := by
  refine ⟨?_, ?_, ?_⟩
  · intro u hfits
    exact exists_renders hfits
  · intro u line rest h
    exact ⟨h.found rest, h.read⟩
  · intro n stat rest
    exact query_not_found n stat rest

/-- A report with everything in it is one of them. -/
theorem full_report_recognised :
    Digest.ofStream (Digest.framing (ofString "+CREG: 1,\"00C3\",\"0000A13F\",7") []) =
      .line (ofString "+CREG: 1,\"00C3\",\"0000A13F\",7") 32 ∧
    read? (ofString "+CREG: 1,\"00C3\",\"0000A13F\",7") = some (network .home) := by
  have hproper : RegistrationReport.Proper ⟨1, some "00C3", some "0000A13F", some 7⟩ := by
    refine ⟨by decide, ?_, ?_, ?_⟩
    · rintro s ⟨⟩
      exact ⟨by decide, by decide⟩
    · rintro s ⟨⟩
      exact ⟨by decide, by decide⟩
    · rintro n ⟨⟩
      decide
  have hline : header "+CREG" (RegistrationReport.text ⟨1, some "00C3", some "0000A13F", some 7⟩) =
      ofString "+CREG: 1,\"00C3\",\"0000A13F\",7" := by decide
  have hrenders : Renders (network .home) (ofString "+CREG: 1,\"00C3\",\"0000A13F\",7") :=
    hline ▸ .network hproper
  exact lines_recognised.2.1 _ _ [] hrenders

end Urc

end Cellular
