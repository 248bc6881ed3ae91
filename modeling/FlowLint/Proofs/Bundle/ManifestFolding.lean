import FlowLint.Bundle.Manifest
import FlowLint.Proofs.Files.Places
import FlowLint.Proofs.Text.Trimming

/-!
# Folded manifests

The value of a header may go on in further lines, each of which begins with one space that does
not belong to it, and each line ends in one of two ways. A value that begins with blanks, or is
folded among them, is kept with other blanks in front, but nothing that is read from it depends on
these. So the manifest is the same however its headers are folded and its lines end; and whatever
the text is, the names that are read from it have no blanks around them.

Lines without a colon, and lines that continue no header, are not among those that are folded.
-/

namespace FlowLint.Bundle

open FlowLint.Text (dropBlanks splitAt trimChars Trimmed)

/-! ## Written headers -/

/-- How a line ends. -/
inductive LineEnd
  | feed
  | returnFeed

/-- The characters at the end of a line. -/
def LineEnd.chars : LineEnd → List Char
  | feed => ['\n']
  | returnFeed => ['\r', '\n']

/-- A line, which holds no character of a line end. -/
structure Line where
  text : List Char
  ending : LineEnd
  no_return : '\r' ∉ text
  no_feed : '\n' ∉ text

/-- A line as written. -/
def Line.chars (l : Line) : List Char :=
  l.text ++ l.ending.chars

/-- A header as written: its key up to a colon, and its value, which may go on in further lines. -/
structure WrittenHeader where
  key : List Char
  first : Line
  further : List Line
  no_return : '\r' ∉ key
  no_feed : '\n' ∉ key
  no_colon : ':' ∉ key
  no_space : key.head? ≠ some ' '

namespace WrittenHeader

/-- The whole value. -/
def value (h : WrittenHeader) : List Char :=
  h.first.text ++ h.further.flatMap (·.text)

/-- The lines of the header. -/
def lines (h : WrittenHeader) : List Line :=
  ⟨h.key ++ ':' :: h.first.text, h.first.ending,
      by simp [h.no_return, h.first.no_return], by simp [h.no_feed, h.first.no_feed]⟩ ::
    h.further.map fun l =>
      ⟨' ' :: l.text, l.ending, by simp [l.no_return], by simp [l.no_feed]⟩

/-- The header on one line. -/
def unfolded (h : WrittenHeader) : WrittenHeader :=
  { h with
    first :=
      ⟨h.value, .feed, by simp [value, h.first.no_return, Line.no_return],
        by simp [value, h.first.no_feed, Line.no_feed]⟩
    further := [] }

end WrittenHeader

/-- The text of headers. -/
def headersText (hs : List WrittenHeader) : String :=
  String.ofList ((hs.flatMap WrittenHeader.lines).flatMap Line.chars)

/-! ## Lines are told apart -/

variable {cs : List Char}

theorem dropReturn_eq_self (h : '\r' ∉ cs) : dropReturn cs = cs := by
  rw [dropReturn, if_neg]
  intro hlast
  exact h (List.mem_of_getLast? hlast)

@[simp] theorem dropReturn_concat (cs : List Char) : dropReturn (cs ++ ['\r']) = cs := by
  rw [dropReturn, if_pos List.getLast?_concat, List.dropLast_concat]

/-- The lines of a text are found again, without their ends. -/
theorem linesOf_chars (lines : List Line) :
    linesOf (splitAt '\n' (lines.flatMap Line.chars)) = lines.map (·.text) := by
  induction lines with
  | nil => rfl
  | cons l rest ih =>
    obtain ⟨piece, hchars, hfeed, hdrop⟩ : ∃ piece, l.chars = piece ++ ['\n'] ∧ '\n' ∉ piece ∧
        dropReturn (dropReturn piece) = l.text := by
      cases hend : l.ending with
      | feed =>
        refine ⟨l.text, by rw [Line.chars, hend]; rfl, l.no_feed, ?_⟩
        rw [dropReturn_eq_self l.no_return, dropReturn_eq_self l.no_return]
      | returnFeed =>
        refine ⟨l.text ++ ['\r'], by rw [Line.chars, hend, List.append_assoc]; rfl, ?_, ?_⟩
        · simp [l.no_feed]
        · rw [dropReturn_concat, dropReturn_eq_self l.no_return]
    have hrest := Text.splitAt_ne_nil '\n' (rest.flatMap Line.chars)
    rw [List.flatMap_cons, hchars, List.append_assoc, List.singleton_append,
      Files.splitAt_append_separator, Files.splitAt_of_notMem hfeed, List.singleton_append]
    cases hmore : splitAt '\n' (rest.flatMap Line.chars) with
    | nil => exact absurd hmore hrest
    | cons next more => rw [linesOf, hdrop, ← hmore, ih, List.map_cons]; nofun

/-! ## Headers are put together -/

namespace WrittenHeader

variable (h : WrittenHeader)

/-- The header as it is kept: of its value, only blanks on the first line are dropped. -/
def kept : Header :=
  ⟨trimChars h.key, dropBlanks h.first.text ++ h.further.flatMap (·.text)⟩

/-- The first line of a written header is read as its key and the beginning of its value. -/
theorem header?_first : header? (h.key ++ ':' :: h.first.text) =
    some ⟨trimChars h.key, dropBlanks h.first.text⟩ := by
  have hkey : ∀ c ∈ h.key, decide (c ≠ ':') = true := fun c hc =>
    decide_eq_true fun heq => h.no_colon (heq ▸ hc)
  rw [header?, List.dropWhile_append_of_pos hkey, List.takeWhile_append_of_pos hkey]
  simp

/-- The first line begins a header. -/
theorem add_first (done : Headers) : done.add (h.key ++ ':' :: h.first.text) =
    ⟨⟨trimChars h.key, dropBlanks h.first.text⟩ :: done.latest, true⟩ := by
  have hline : ∀ more, h.key ++ ':' :: h.first.text ≠ ' ' :: more := by
    intro more heq
    cases hkey : h.key with
    | nil =>
      rw [hkey] at heq
      exact absurd (List.cons.inj heq).1 (by decide)
    | cons c rest =>
      rw [hkey] at heq
      refine h.no_space ?_
      rw [hkey, (List.cons.inj heq).1, List.head?_cons]
  rw [Headers.add, header?_first]
  exact hline

/-- Further lines are added to the value, each without its space. -/
theorem foldl_add_further (lines : List (List Char)) (key value : List Char)
    (others : List Header) :
    (lines.map (' ' :: ·)).foldl Headers.add ⟨⟨key, value⟩ :: others, true⟩ =
      ⟨⟨key, value ++ lines.flatten⟩ :: others, true⟩ := by
  induction lines generalizing value with
  | nil => rw [List.flatten_nil, List.append_nil]; rfl
  | cons line rest ih =>
    have hadd : Headers.add ⟨⟨key, value⟩ :: others, true⟩ (' ' :: line) =
        ⟨⟨key, value ++ line⟩ :: others, true⟩ := rfl
    rw [List.map_cons, List.foldl_cons, hadd, ih, List.flatten_cons, List.append_assoc]

theorem foldl_add_lines (done : Headers) :
    (h.lines.map (·.text)).foldl Headers.add done = ⟨h.kept :: done.latest, true⟩ := by
  rw [lines, List.map_cons, List.foldl_cons, add_first, List.map_map]
  have hfurther := foldl_add_further (h.further.map (·.text)) (trimChars h.key)
    (dropBlanks h.first.text) done.latest
  rw [List.map_map] at hfurther
  exact hfurther

end WrittenHeader

/-- The headers of a text are those that are written, the last one first. -/
theorem latest_headersText (hs : List WrittenHeader) :
    (Headers.ofText (headersText hs)).latest = (hs.map WrittenHeader.kept).reverse := by
  have hfold : ∀ done : Headers, (((hs.flatMap WrittenHeader.lines).map (·.text)).foldl
      Headers.add done).latest = (hs.map WrittenHeader.kept).reverse ++ done.latest := by
    induction hs with
    | nil => exact fun done => rfl
    | cons h rest ih =>
      intro done
      have hkept : ((h :: rest).map WrittenHeader.kept).reverse ++ done.latest =
          (rest.map WrittenHeader.kept).reverse ++ h.kept :: done.latest := by
        simp
      rw [List.flatMap_cons, List.map_append, List.foldl_append, h.foldl_add_lines, ih, hkept]
  rw [Headers.ofText, headersText, String.toList_ofList, linesOf_chars, hfold]
  exact List.append_nil _

/-! ## What is read from headers -/

/-- Two values are the same but for blanks in front. -/
def SameBehindBlanks (cs ds : List Char) : Prop :=
  dropBlanks cs = dropBlanks ds

theorem nonBlank?_congr {cs ds : List Char} (h : SameBehindBlanks cs ds) :
    nonBlank? cs = nonBlank? ds := by
  have htrim : trimChars cs = trimChars ds := by
    rw [← Text.trimChars_dropBlanks cs, h, Text.trimChars_dropBlanks]
  rw [nonBlank?, nonBlank?, htrim]

theorem SameBehindBlanks.takeWhile {cs ds : List Char} (h : SameBehindBlanks cs ds) :
    SameBehindBlanks (cs.takeWhile (· ≠ ';')) (ds.takeWhile (· ≠ ';')) := by
  have hblank : ∀ c, Text.isBlank c = true → decide (c ≠ ';') = true := by
    intro c hc
    refine decide_eq_true ?_
    rintro rfl
    exact absurd hc (by decide)
  rw [SameBehindBlanks, ← Text.takeWhile_dropBlanks hblank, h, Text.takeWhile_dropBlanks hblank]

/-- The value found is that of the last header with the key. -/
theorem value?_headersText (hs : List WrittenHeader) (key : String) :
    (Headers.ofText (headersText hs)).value? key =
      (hs.reverse.find? fun h => trimChars h.key = key.toList).map (·.kept.value) := by
  rw [Headers.value?, latest_headersText, ← List.map_reverse, List.find?_map, Option.map_map]
  rfl

/-- Unfolding a header keeps its value up to blanks in front. -/
theorem WrittenHeader.kept_unfolded (h : WrittenHeader) :
    SameBehindBlanks h.kept.value h.unfolded.kept.value := by
  have hone : h.unfolded.kept.value = dropBlanks h.value := List.append_nil _
  rw [SameBehindBlanks, hone, Text.dropBlanks_dropBlanks, kept, Text.dropBlanks_append,
    value]

/-- One header is looked up, however it is folded. -/
theorem value?_unfolded (hs : List WrittenHeader) (key : String) :
    Option.Rel SameBehindBlanks ((Headers.ofText (headersText hs)).value? key)
      ((Headers.ofText (headersText (hs.map WrittenHeader.unfolded))).value? key) := by
  rw [value?_headersText, value?_headersText, ← List.map_reverse, List.find?_map, Option.map_map]
  have hkeys : ((fun h => decide (trimChars h.key = key.toList)) ∘ WrittenHeader.unfolded) =
      fun h => decide (trimChars h.key = key.toList) := rfl
  rw [hkeys]
  cases hs.reverse.find? fun h => decide (trimChars h.key = key.toList) with
  | none => exact .none
  | some h => exact .some h.kept_unfolded

theorem bind_congr {α : Type} {x y : Option (List Char)} (h : Option.Rel SameBehindBlanks x y)
    {f : List Char → Option α} (hf : ∀ cs ds, SameBehindBlanks cs ds → f cs = f ds) :
    x.bind f = y.bind f := by
  cases h with
  | none => rfl
  | some h => exact hf _ _ h

/-- A manifest is read alike from folded and from unfolded headers. -/
theorem parse?_unfolded (hs : List WrittenHeader) :
    Manifest.parse? (headersText hs) =
      Manifest.parse? (headersText (hs.map WrittenHeader.unfolded)) := by
  have hname := bind_congr (value?_unfolded hs "Bundle-Name") fun _ _ h => nonBlank?_congr h
  rw [Manifest.parse?, Manifest.parse?]
  simp only [Option.bind_eq_bind, hname]
  exact bind_congr (value?_unfolded hs "Bundle-SymbolicName") fun _ _ h => by
    rw [nonBlank?_congr h.takeWhile]

/-! ## What is read from any text -/

theorem nonBlank?_eq_some {cs : List Char} {s : String} (h : nonBlank? cs = some s) :
    Trimmed s ∧ ∀ c ∈ s.toList, c ∈ cs := by
  rw [nonBlank?] at h
  split at h
  · cases h
  · next hne =>
    cases h
    have htrimmed : Trimmed (String.ofList (trimChars cs)) := Text.trimmed_ofList hne
    refine ⟨htrimmed, fun c hc => ?_⟩
    rw [String.toList_ofList] at hc
    exact Text.mem_of_mem_trimChars hc

/-- What is read can be compared as it stands: names have no blanks around them, and there are no
directives in the symbolic name. -/
structure Manifest.Clean (m : Manifest) : Prop where
  symbolicName : Trimmed m.symbolicName
  no_directive : ';' ∉ m.symbolicName.toList
  name : Trimmed m.name

/-- Whatever is read has been trimmed and is not blank. -/
theorem clean_of_parse? {text : String} {m : Manifest} (h : Manifest.parse? text = some m) :
    m.Clean := by
  simp only [Manifest.parse?, Option.bind_eq_bind, Option.bind_eq_some_iff] at h
  obtain ⟨declared, -, symbolicName, hsymbolic, heq⟩ := h
  cases heq
  obtain ⟨htrimmed, hmem⟩ := nonBlank?_eq_some hsymbolic
  refine { symbolicName := htrimmed, no_directive := fun hc => ?_, name := ?_ }
  · have hkept := List.mem_takeWhile_imp (hmem _ hc)
    exact absurd hkept (by decide)
  · dsimp only
    cases hname : ((Headers.ofText text).value? "Bundle-Name").bind nonBlank? with
    | none => exact htrimmed
    | some name =>
      obtain ⟨cs, -, hcs⟩ := Option.bind_eq_some_iff.mp hname
      exact (nonBlank?_eq_some hcs).1

/-- **Manifests are read the same however they are folded**: headers can go on in further lines
and end their lines in either way. Whatever text a manifest is read from, its names can be
compared as they stand. -/
theorem manifest_folding :
    (∀ hs, Manifest.parse? (headersText hs) =
      Manifest.parse? (headersText (hs.map WrittenHeader.unfolded))) ∧
    ∀ text m, Manifest.parse? text = some m → m.Clean :=
  ⟨parse?_unfolded, fun _ _ h => clean_of_parse? h⟩

/-- Two headers, folded before the value begins, in a name, in a directive and at a blank. -/
def foldedOrders : List WrittenHeader :=
  [{ key := "Bundle-SymbolicName".toList
     first := ⟨[], .returnFeed, by decide, by decide⟩
     further := [⟨" Orders_Repl".toList, .feed, by decide, by decide⟩,
       ⟨"icate; single".toList, .feed, by decide, by decide⟩,
       ⟨"ton:=true".toList, .returnFeed, by decide, by decide⟩]
     no_return := by decide
     no_feed := by decide
     no_colon := by decide
     no_space := by decide },
   { key := "Bundle-Name".toList
     first := ⟨" Replicate ".toList, .returnFeed, by decide, by decide⟩
     further := [⟨"orders".toList, .feed, by decide, by decide⟩]
     no_return := by decide
     no_feed := by decide
     no_colon := by decide
     no_space := by decide }]

theorem manifest_folding_orders :
    headersText foldedOrders = "Bundle-SymbolicName:\r\n  Orders_Repl\n icate; single\n " ++
        "ton:=true\r\nBundle-Name: Replicate \r\n orders\n" ∧
      headersText (foldedOrders.map WrittenHeader.unfolded) =
        "Bundle-SymbolicName: Orders_Replicate; singleton:=true\nBundle-Name: Replicate orders\n" ∧
      ∃ m, Manifest.parse? (headersText foldedOrders) = some m ∧
        Manifest.parse? (headersText (foldedOrders.map WrittenHeader.unfolded)) = some m ∧
        m = ⟨"Orders_Replicate", "Replicate orders"⟩ ∧ m.Clean := by
  have hparse : Manifest.parse? (headersText foldedOrders) =
      some ⟨"Orders_Replicate", "Replicate orders"⟩ := by decide +kernel
  refine ⟨by decide +kernel, by decide +kernel, _, hparse, ?_, rfl,
    manifest_folding.2 _ _ hparse⟩
  rw [← manifest_folding.1, hparse]

end FlowLint.Bundle
