import Cellular.Proofs.Grammar.Listing
import Cellular.Proofs.Text.Listed
import Cellular.Reply.BandNames
import Mathlib.Data.List.Perm.Subperm
/-!
# What a listing of band names tells

Every line of a listing is read by itself, and a band is listed for every line that enables it,
while there is room (`enabledBands?_eq_some`).  So a band that two lines enable is listed twice, and
may take up the room of another one.

The table has fewer bands than a list has room for.  So nothing is wrong with a list as long as no
band is listed twice, and that is the case just if no two lines enable the same band
(`listed_once_iff`).

The induction is on the lines.  Since a line is read by itself, the bands of a listing are those of
its lines put together, and the capacity only cuts the end off (`enabledBands?_eq_some`).  That the
reader stops with an error at a line that it cannot read is kept apart: it happens for the text of a
name and for nothing else (`isSome_enabledBand?`).
-/

namespace Cellular

variable {b : Band} {line reply : Bytes} {lines : List Bytes} {found : List Band}

/-! ## Lines

A line sets a name to a number.  It enables a band if the number is 1 and the name is one of those
that the table has for the band; any other line that can be read is passed over. -/

/-- A name of the band in a listing, with blanks around it or without. -/
def Band.Named (b : Band) (name : Bytes) : Prop :=
  ∃ cs, Scanner.text? name = some cs ∧ (b, String.ofList cs) ∈ bandNames

/-- The line gives a name of the band the value 1. -/
def Band.EnabledBy (b : Band) (line : Bytes) : Prop :=
  ∃ name, Scanner.Sets name 1 line ∧ b.Named name

/-- A name stands for a band if the table has them together. -/
theorem bandOfListedName?_eq_some_iff {cs : List Char} :
    bandOfListedName? cs = some b ↔ (b, String.ofList cs) ∈ bandNames := by
  constructor
  · intro h
    obtain ⟨⟨b, name⟩, hfound, rfl⟩ := Option.map_eq_some_iff.mp h
    have hname : name.toList = cs := by simpa using List.find?_some hfound
    rw [← hname, String.ofList_toList]
    exact List.mem_of_find?_eq_some hfound
  · intro h
    have hall : ∀ e ∈ bandNames, bandOfListedName? e.2.toList = some e.1 := by decide
    have hone := hall _ h
    rwa [String.toList_ofList] at hone

/-- A line enables the bands that are read off it. -/
theorem enabledBand?_eq_some_iff : enabledBand? line = some (some b) ↔ b.EnabledBy line := by
  constructor
  · intro h
    unfold enabledBand? at h
    split at h
    · rename_i name hread
      obtain ⟨cs, htext, hband⟩ := Option.map_eq_some_iff.mp h
      exact ⟨name, (Scanner.namedValue_eq_some_iff.mp hread).2, cs, htext,
        bandOfListedName?_eq_some_iff.mp hband⟩
    · cases h
  · rintro ⟨name, hsets, cs, htext, hnamed⟩
    have hread : Scanner.item? Scanner.namedValue line = some (name, 1) :=
      Scanner.namedValue_eq_some_iff.mpr ⟨by decide, hsets⟩
    rw [enabledBand?, hread]
    simp only [htext, Option.map_some, bandOfListedName?_eq_some_iff.mpr hnamed]

/-- A line cannot be read if it enables what is no text. -/
theorem isSome_enabledBand? :
    (enabledBand? line).isSome ↔ ∀ name, Scanner.Sets name 1 line →
    (Scanner.text? name).isSome := by
  unfold enabledBand?
  split
  · rename_i name hread
    rw [Option.isSome_map]
    constructor
    · intro htext name' hsets
      have hread' := Scanner.namedValue_eq_some_iff.mpr ⟨by decide, hsets⟩
      rw [hread] at hread'
      obtain ⟨rfl, -⟩ := Prod.mk.inj (Option.some.inj hread')
      exact htext
    · exact fun h => h name (Scanner.namedValue_eq_some_iff.mp hread).2
  · rename_i hother
    exact iff_of_true rfl fun name hsets =>
      absurd (Scanner.namedValue_eq_some_iff.mpr ⟨by decide, hsets⟩) (hother name)

/-! ## Listings

Lists have room for sixteen bands.  Cutting a list at its capacity makes no difference when the list
is short, so the question is when the list before the cut is, and repetitions are all that can make
it long. -/

/-- The bands that lines enable, one for each line that enables one. -/
def bandsOfLines (lines : List Bytes) : List Band :=
  lines.filterMap fun line => (enabledBand? line).join

theorem mem_bandsOfLines : b ∈ bandsOfLines lines ↔ ∃ line ∈ lines, b.EnabledBy line := by
  simp only [bandsOfLines, List.mem_filterMap, Option.join_eq_some_iff, enabledBand?_eq_some_iff]

/-- No two of the lines enable the same band. -/
def EnableOnce (lines : List Bytes) : Prop :=
  lines.Pairwise fun line other => ∀ b : Band, ¬ (b.EnabledBy line ∧ b.EnabledBy other)

/-- No band is listed twice just if no two lines enable the same one. -/
theorem nodup_bandsOfLines : (bandsOfLines lines).Nodup ↔ EnableOnce lines := by
  -- two lines give the same band just when both enable it
  have hpair : ∀ line other : Bytes, (∀ b, (enabledBand? line).join = some b →
      ∀ b', (enabledBand? other).join = some b' → b ≠ b') ↔
        ∀ b : Band, ¬ (b.EnabledBy line ∧ b.EnabledBy other) := by
    intro line other
    simp only [Option.join_eq_some_iff, enabledBand?_eq_some_iff]
    constructor
    · rintro h b ⟨hline, hother⟩
      exact h b hline b hother rfl
    · rintro h b hline b' hother rfl
      exact h b ⟨hline, hother⟩
  rw [bandsOfLines, List.Nodup, List.pairwise_filterMap, EnableOnce]
  simp only [hpair]

/-- A list that is read is what the lines enable, while there is room. -/
theorem enabledBands?_eq_some (h : enabledBands? reply = some found) :
    found = (bandsOfLines (Scanner.lines reply)).take Band.listCapacity := by
  obtain ⟨told, htold, rfl⟩ := Option.map_eq_some_iff.mp h
  congr 1
  clear h
  generalize Scanner.lines reply = lines at htold
  induction lines generalizing told with
  | nil =>
    obtain rfl := Option.some.inj htold
    rfl
  | cons line lines ih =>
    obtain ⟨band, rest, hline, hrest, rfl⟩ := mapM_cons_eq_some htold
    rw [List.filterMap_cons, bandsOfLines, List.filterMap_cons, hline, ih rest hrest]
    rfl

/-- A band gets a place if one of its lines comes before the room is used up. -/
theorem mem_take_bandsOfLines {room : Nat} : b ∈ (bandsOfLines lines).take room ↔
    ∃ before line after, lines = before ++ line :: after ∧ b.EnabledBy line ∧
    (bandsOfLines before).length < room := by
  constructor
  · intro h
    -- the place of the band in the list tells the line that it was listed for
    obtain ⟨i, hi, hget⟩ := List.mem_take_iff_getElem.mp h
    have hi : i < room ∧ i < (bandsOfLines lines).length := by omega
    have hsplit : bandsOfLines lines = (bandsOfLines lines).take i ++
        b :: (bandsOfLines lines).drop (i + 1) := by
      rw [← hget, List.getElem_cons_drop, List.take_append_drop]
    obtain ⟨before, rest, rfl, hbefore, hrest⟩ := List.filterMap_eq_append_iff.mp hsplit
    obtain ⟨between, line, after, rfl, hbetween, hline, -⟩ := List.filterMap_eq_cons_iff.mp hrest
    refine ⟨before ++ between, line, after, (List.append_assoc _ _ _).symm,
      enabledBand?_eq_some_iff.mp (Option.join_eq_some_iff.mp hline), ?_⟩
    have hnone : bandsOfLines between = [] := List.filterMap_eq_nil_iff.mpr hbetween
    have hsame : bandsOfLines (before ++ between) = bandsOfLines before := by
      rw [bandsOfLines, List.filterMap_append, ← bandsOfLines, ← bandsOfLines, hnone,
        List.append_nil]
    rw [hsame, bandsOfLines, hbefore, List.length_take]
    omega
  · rintro ⟨before, line, after, rfl, hline, hroom⟩
    have hband : (enabledBand? line).join = some b :=
      Option.join_eq_some_iff.mpr (enabledBand?_eq_some_iff.mpr hline)
    have hsplit : bandsOfLines (before ++ line :: after) =
        (bandsOfLines before ++ [b]) ++ bandsOfLines after := by
      simp [bandsOfLines, hband]
    have hfits : (bandsOfLines before ++ [b]).length ≤ room := by
      rw [List.length_append]
      exact hroom
    rw [hsplit, List.take_append, List.take_of_length_le hfits]
    simp

/-- There are fewer bands than there is room for. -/
theorem length_lt_of_nodup (hnodup : found.Nodup) (hfound : ∀ b ∈ found, ∃ line, b.EnabledBy line) :
    found.length < Band.listCapacity := by
  have hsubset : found ⊆ bandNames.map Prod.fst := by
    intro b hb
    obtain ⟨line, name, -, cs, -, hnamed⟩ := hfound b hb
    exact List.mem_map_of_mem hnamed
  exact Nat.lt_of_le_of_lt (hnodup.subperm hsubset).length_le (by decide)

/-- So nothing is left out of a list without repetitions. -/
theorem nodup_take_bandsOfLines :
    ((bandsOfLines lines).take Band.listCapacity).Nodup ↔ EnableOnce lines := by
  rw [← nodup_bandsOfLines]
  refine ⟨fun h => ?_, fun h => h.sublist (List.take_sublist _ _)⟩
  have hfew : ((bandsOfLines lines).take Band.listCapacity).length < Band.listCapacity :=
    length_lt_of_nodup h fun b hb => by
      obtain ⟨line, -, hline⟩ := mem_bandsOfLines.mp (List.mem_of_mem_take hb)
      exact ⟨line, hline⟩
  rw [List.length_take] at hfew
  rwa [List.take_of_length_le (by omega)] at h

/-- Where no band is enabled twice, the list of bands is not cut. -/
theorem EnableOnce.take_eq (h : EnableOnce lines) :
    (bandsOfLines lines).take Band.listCapacity = bandsOfLines lines := by
  have hfew : (bandsOfLines lines).length < Band.listCapacity :=
    length_lt_of_nodup (nodup_bandsOfLines.mpr h) fun b hb => by
      obtain ⟨line, -, hline⟩ := mem_bandsOfLines.mp hb
      exact ⟨line, hline⟩
  exact List.take_of_length_le (Nat.le_of_lt hfew)

/-- **When a listing is read as the bands that it enables, each of them once.**  A listing can be
read unless a line enables a name that is no text.  Only bands that a line enables are listed.  None
is listed twice just if no two lines enable the same band, and then none is missing.  One is missing
just if all lines that enable it come when the room is used up. -/
theorem listed_once_iff (reply : Bytes) :
    ((enabledBands? reply).isSome ↔
      ∀ line ∈ Scanner.lines reply, ∀ name, Scanner.Sets name 1 line →
      (Scanner.text? name).isSome) ∧
    ∀ found, enabledBands? reply = some found →
      ((found.Nodup ∧ ∀ b, b ∈ found ↔ ∃ line ∈ Scanner.lines reply, b.EnabledBy line) ↔
        EnableOnce (Scanner.lines reply)) ∧
      (∀ b ∈ found, ∃ line ∈ Scanner.lines reply, b.EnabledBy line) ∧
      (found.Nodup ↔ EnableOnce (Scanner.lines reply)) ∧
      ∀ b, b ∈ found ↔ ∃ before line after, Scanner.lines reply = before ++ line :: after ∧
        b.EnabledBy line ∧
        (bandsOfLines before).length < Band.listCapacity := by
  refine ⟨?_, fun found hfound => ?_⟩
  · rw [enabledBands?, Option.isSome_map, isSome_mapM]
    simp only [isSome_enabledBand?]
  · obtain rfl := enabledBands?_eq_some hfound
    refine ⟨⟨fun h => nodup_take_bandsOfLines.mp h.1, fun h =>
      ⟨nodup_take_bandsOfLines.mpr h, fun b => ?_⟩⟩, fun b hb => mem_bandsOfLines.mp
        (List.mem_of_mem_take hb), nodup_take_bandsOfLines, fun b => mem_take_bandsOfLines⟩
    rw [h.take_eq, mem_bandsOfLines]

/-- A listing that enables two bands, passes over another, and enables a name that is no band. -/
theorem listed_once_iff_plain :
    enabledBands? (Bytes.ofString "\"ANY\": 1\r\n\"EGSM\": 0\r\n\"FDD_BAND_I\": 1\r\n\"DCS\": 1") =
      some [.u2100, .dcs] ∧
      [Band.u2100, .dcs].Nodup ∧ ∀ b, b ∈ [Band.u2100, .dcs] ↔
        ∃ line ∈ Scanner.lines
          (Bytes.ofString "\"ANY\": 1\r\n\"EGSM\": 0\r\n\"FDD_BAND_I\": 1\r\n\"DCS\": 1"),
        b.EnabledBy line := by
  have hread :
    enabledBands? (Bytes.ofString "\"ANY\": 1\r\n\"EGSM\": 0\r\n\"FDD_BAND_I\": 1\r\n\"DCS\": 1") =
      some [.u2100, .dcs] := by decide +kernel
  obtain ⟨honce, -, hnodup, -⟩ := (listed_once_iff _).2 _ hread
  exact ⟨hread, honce.mpr (hnodup.mp (by decide))⟩

/-- A band that two lines enable is listed twice, and one that is enabled often leaves no room for
another. -/
theorem repeated_band_listed_again :
    enabledBands? (Bytes.ofString "\"EGSM\": 1\r\n\"EGSM\": 1") = some [.egsm, .egsm] ∧
    enabledBands? ((List.replicate 16 (Bytes.ofString "\"EGSM\": 1\r\n")).flatten ++
      Bytes.ofString "\"DCS\": 1") =
      some (List.replicate 16 .egsm) ∧
    ¬ ∀ reply found, enabledBands? reply = some found →
      found.Nodup ∧ ∀ b, b ∈ found ↔ ∃ line ∈ Scanner.lines reply, b.EnabledBy line := by
  have htwice : enabledBands? (Bytes.ofString "\"EGSM\": 1\r\n\"EGSM\": 1") =
      some [.egsm, .egsm] := by decide +kernel
  refine ⟨htwice, by decide +kernel, fun h => ?_⟩
  exact absurd (h _ _ htwice).1 (by decide)

end Cellular
