import Lineage.Proofs.Consumption
import Lineage.Proofs.Counters
import Lineage.Proofs.Transmission

/-!
# What is blank

Whether there is anything in a line is asked twice. A feed of lines asks it of the bytes and passes
over a line of nothing but blanks of ASCII. Whoever decodes a message asks it of the characters and
refuses a text of nothing but White_Space, of which there is more than these
(`Telemetry.Message.decodeBytes_eq_noText_iff`). So a line of ASCII blanks is never handed out, and
what is handed out is refused as no text just if it is a text of White_Space with some that is not
blank in the narrow sense (`Recorder.blankness_run`). A line of ideographic spaces is such a text
(`Recorder.blankness_run_ideographic`).

What a run receives is among the messages that arrive, each as often and in their order
(`Feed.Fetches.sublist`), and its counters tell of these messages which were refused
(`Session.count_dropped_after`).
-/

namespace Lineage

open Lineage.Graph Lineage.Text Session Telemetry

/-! ### Blank bytes and blank characters -/

namespace Feed

/-- The characters that make no message: blanks of ASCII. -/
def isLineBlank (c : Char) : Bool :=
  c = ' ' || c = '\t' || c = '\n' || c = '\x0c' || c = '\r'

/-- **A character is spelt with blank bytes if and only if it is a blank of ASCII.** -/
theorem all_isBlankByte_utf8EncodeChar (c : Char) :
    (String.utf8EncodeChar c).all isBlankByte = isLineBlank c := by
  rw [Bool.eq_iff_iff]
  constructor
  · intro hall
    obtain ⟨b, more, hbytes⟩ := List.exists_cons_of_ne_nil (Utf8.utf8EncodeChar_ne_nil c)
    have hb : isBlankByte b = true := List.all_eq_true.1 hall b (by simp [hbytes])
    -- A byte of ASCII is the whole spelling, so the character has its number.
    have hcode : c.toNat = b.toNat :=
      ((Utf8.spells_utf8EncodeChar c).eq_singleton_of_mem (by simp [hbytes])
        (toNat_lt_of_isBlankByte hb)).2
    have hchar (d : Char) (hd : d.toNat = b.toNat) (hblank : isLineBlank d = true) :
        isLineBlank c = true := by
      rwa [Char.toNat_inj.1 (hcode.trans hd.symm)]
    -- There are five blank bytes, and each is the number of one blank character.
    simp only [isBlankByte, Bool.or_eq_true, beq_iff_eq, or_assoc] at hb
    rcases hb with rfl | rfl | rfl | rfl | rfl
    · exact hchar ' ' rfl rfl
    · exact hchar '\t' rfl rfl
    · exact hchar '\n' rfl rfl
    · exact hchar '\x0c' rfl rfl
    · exact hchar '\r' rfl rfl
  · intro hblank
    simp only [isLineBlank, Bool.or_eq_true, decide_eq_true_eq, or_assoc] at hblank
    rcases hblank with rfl | rfl | rfl | rfl | rfl <;> decide

/-- A text is spelt with blank bytes if all its characters are blanks of ASCII. -/
theorem all_isBlankByte_encode (text : String) :
    (Utf8.encode text).all isBlankByte = text.toList.all isLineBlank := by
  rw [Utf8.encode, List.all_flatMap]
  exact congrArg _ (funext all_isBlankByte_utf8EncodeChar)

/-- A line that makes a message is not blank. -/
theorem all_isBlankByte_of_message? {line raw : List UInt8}
    (h : message? line = some (.message raw)) : raw.all isBlankByte = false := by
  rw [message?] at h
  split at h
  · cases h
  next hblank =>
    obtain rfl := Arrival.message.inj (Option.some.inj h)
    exact Bool.eq_false_iff.2 hblank

/-- **No blank line arrives**, whatever the reads bring and wherever they fail or end. -/
theorem all_isBlankByte_of_mem_arrivalsFrom {pending : List UInt8} {reads : List Read}
    {raw : List UInt8} (h : .message raw ∈ arrivalsFrom pending reads) :
    raw.all isBlankByte = false := by
  have hline {line : List UInt8} (hmem : .message raw ∈ (message? line).toList) :
      raw.all isBlankByte = false :=
    all_isBlankByte_of_message? (Option.mem_toList.1 hmem)
  fun_induction arrivalsFrom pending reads with
  | case1 pending => exact hline h
  | case2 pending reason reads ih => exact ih ((List.mem_cons.1 h).resolve_left nofun)
  | case3 reads ih => exact ih ((List.mem_cons.1 h).resolve_left nofun)
  | case4 pending reads hpending ih => exact (List.mem_append.1 h).elim hline ih
  | case5 pending chunk reads hopen hchunk ih =>
    rcases List.mem_append.1 h with hcompleted | hrest
    · -- A line that was completed inside the chunk, or one that comes later.
      obtain ⟨line, -, hmessage⟩ := List.mem_filterMap.1 hcompleted
      exact all_isBlankByte_of_message? hmessage
    · exact ih hrest

/-! ### What is fetched -/

/-- A fetch takes its message from what arrives, and leaves the rest in its order. -/
theorem fetch_sublist (arrivals : List Arrival) :
    ((fetch arrivals).result.message?.toList.map Arrival.message ++ (fetch arrivals).rest).Sublist
      arrivals := by
  induction arrivals with
  | nil => exact .slnil
  | cons arrival rest ih =>
    cases arrival with
    | message bytes => exact List.Sublist.refl _
    | failed reason => exact List.sublist_cons_self _ _
    | ended => exact List.sublist_cons_self _ _
    -- A request is passed over within one fetch, all else ends it.
    | stopRequest => exact ih.cons _
    | silence => exact List.Sublist.refl _

/-- The messages that some fetches hand out are among those that arrive, each as often and
in their order. -/
theorem Fetches.sublist {arrivals rest : List Arrival} {fetches : List Fetch}
    (h : Fetches arrivals fetches rest) :
    ((yielded fetches).map Arrival.message ++ rest).Sublist arrivals := by
  induction h with
  | none arrivals => exact List.Sublist.refl _
  | @more arrivals rest fetches h ih =>
    have hfirst : yielded (fetch arrivals :: fetches) = (fetch arrivals).result.message?.toList ++
        yielded fetches := by
      rw [yielded, List.filterMap_cons]
      cases (fetch arrivals).result.message? <;> rfl
    rw [hfirst, List.map_append, List.append_assoc]
    exact (ih.append_left _).trans (fetch_sublist arrivals)

end Feed

/-! ### What is refused as no text -/

namespace Telemetry.Message

/-- **A text is refused as no text if and only if there is nothing but blanks in it.** -/
theorem decode_eq_noText_iff {raw : String} :
    decode raw = .error (.malformed .noText) ↔ IsBlankText raw := by
  rw [decode_eq_iff]
  constructor
  · rintro ⟨before, text, after, htrims, hreads⟩
    -- Only the first of the checks ends in this error.
    cases hreads with
    | noText =>
      intro c hc
      rw [htrims.eq, String.append_empty, String.toList_append, List.mem_append] at hc
      exact hc.elim (htrims.before c) (htrims.after c)
  · intro hblank
    exact ⟨raw, "", "", ⟨by simp, hblank, ⟨nofun, nofun⟩, nofun⟩, .noText⟩

/-- **The same holds of bytes**: they have to encode such a text. Other bytes are refused for
another reason. -/
theorem decodeBytes_eq_noText_iff {raw : List UInt8} :
    decodeBytes raw = .error (.malformed .noText) ↔
      ∃ text, raw = Utf8.encode text ∧ IsBlankText text := by
  rw [decodeBytes]
  cases hdecode : Utf8.decode raw with
  | error fault =>
    constructor
    · -- Bytes that are no text are refused as such, so neither side holds.
      intro hnoText
      cases hnoText
    · rintro ⟨text, hraw, -⟩
      cases hdecode.symm.trans (Utf8.decode_eq_ok_iff.2 hraw)
  | ok text =>
    have hraw : raw = Utf8.encode text := Utf8.decode_eq_ok_iff.1 hdecode
    refine decode_eq_noText_iff.trans ⟨fun hblank => ⟨text, hraw, hblank⟩, ?_⟩
    rintro ⟨text', hraw', hblank⟩
    obtain rfl : text = text' := Except.ok.inj (hdecode.symm.trans (Utf8.decode_eq_ok_iff.2 hraw'))
    exact hblank

end Telemetry.Message

/-! ### Runs over lines -/

namespace Recorder

variable {σ : Type} [Sink σ]

/-- **Blank lines are not taken in.** Of the lines that arrive, each has a byte that is no blank of
ASCII, hence a character that is none if it is a text, and it is refused as no text if and only if
it is a text of White_Space all the same. What a run receives is among these lines, and it counts
those that it refuses, each under the kind of the error: a line of ASCII blanks is neither received
nor counted as malformed. -/
theorem blankness_run (recorder : Recorder σ) (stopRequested : Bool) (label : String)
    (reads : List Feed.Read) :
    let feed := Feed.ofReads label reads
    let summary := (recorder.consume stopRequested feed).1
    (∀ raw, .message raw ∈ feed.arrivals → raw.all Feed.isBlankByte = false ∧
      (∀ text, raw = Utf8.encode text → ∃ c ∈ text.toList, Feed.isLineBlank c = false) ∧
      (Message.decodeBytes raw = .error (.malformed .noText) ↔
        ∃ text, raw = Utf8.encode text ∧ IsBlankText text)) ∧
    ∃ raws : List (List UInt8), (raws.map Feed.Arrival.message).Sublist feed.arrivals ∧
    summary.received = raws.length ∧
      ∀ kind, summary.stats.dropped.count kind = recorder.session.stats.dropped.count kind +
        (raws.map Message.decodeBytes).countP (isRefusedAs kind) := by
  intro feed summary
  constructor
  · intro raw hraw
    have hvisible : raw.all Feed.isBlankByte = false :=
      Feed.all_isBlankByte_of_mem_arrivalsFrom hraw
    refine ⟨hvisible, ?_, Message.decodeBytes_eq_noText_iff⟩
    rintro text rfl
    -- Not all bytes are blank, so not all characters are.
    rw [Feed.all_isBlankByte_encode, List.all_eq_false] at hvisible
    simpa using hvisible
  · obtain ⟨fetches, htold, hrecorder⟩ :=
      recorder.exists_toldBy [.consume feed.label] stopRequested feed.arrivals
    have hsublist : ((Feed.yielded fetches).map Feed.Arrival.message).Sublist feed.arrivals :=
      (List.sublist_append_left _ _).trans htold.fetched.sublist
    refine ⟨Feed.yielded fetches, hsublist, htold.received, fun kind => ?_⟩
    -- Flushing the sink leaves the session as it is.
    have hstats : summary.stats =
        (recorder.session.after ((Feed.yielded fetches).map Message.decodeBytes)).stats := by
      show (recorder.drain _ _ _).recorder.session.stats = _
      rw [hrecorder, session_run, List.map_map]
      rfl
    rw [hstats, count_dropped_after]

/-- Of a line of ASCII blanks and a line of an ideographic space only the second one arrives. -/
theorem blankness_run_spaces :
    let feed := Feed.ofReads "memory" [.bytes (Utf8.encode " \t\r\n\u3000\n")]
    feed.arrivals = [.message (Utf8.encode "\u3000")] ∧
      Message.decodeBytes (Utf8.encode "\u3000") = .error (.malformed .noText) ∧
      ∃ c ∈ "\u3000".toList, Feed.isLineBlank c = false := by
  intro feed
  have harrivals : feed.arrivals = [.message (Utf8.encode "\u3000")] := by decide +kernel
  obtain ⟨harriving, -⟩ := (start .full Document.empty).blankness_run false "memory"
    [.bytes (Utf8.encode " \t\r\n\u3000\n")]
  obtain ⟨-, hvisible, hrefused⟩ :=
    harriving (Utf8.encode "\u3000") (harrivals ▸ List.mem_singleton_self _)
  exact ⟨harrivals, hrefused.2 ⟨"\u3000", rfl, by simp [IsBlankText, isBlank]⟩, hvisible _ rfl⟩

/-- A line of an ideographic space is received, and counted as malformed. -/
theorem blankness_run_ideographic :
    let feed := Feed.ofReads "memory" [.bytes (Utf8.encode "\u3000\n")]
    let summary := ((start .full Document.empty).consume false feed).1
    feed.arrivals = [.message (Utf8.encode "\u3000")] ∧
      Message.decodeBytes (Utf8.encode "\u3000") = .error (.malformed .noText) ∧
      summary.received = 1 ∧ summary.stats.dropped.count "malformed_message" = 1 := by
  decide +kernel

end Recorder

end Lineage
