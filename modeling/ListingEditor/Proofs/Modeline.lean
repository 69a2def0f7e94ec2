import ListingEditor.Modeline
import ListingEditor.Proofs.Text.Blank
import Mathlib.Data.List.Infix

/-!
Modelines read back. What is written between the first two markers of a line is read as it stands, with nothing of the
line around it, and its items are read one by one.
-/

namespace ListingEditor

theorem Text.ne_of_isSpace {c d : Char} (hd : Text.isSpace d = false) (hc : Text.isSpace c = true) : d ≠ c := by
  rintro rfl
  exact absurd hc (by simp [hd])

theorem Text.lower_ne_nil {text : List Char} (hne : text ≠ []) : Text.lower text ≠ [] := by
  obtain ⟨c, text, rfl⟩ := List.exists_cons_of_ne_nil hne
  have hfirst : Text.lowerAt [] c text ≠ [] := by
    unfold Text.lowerAt
    split_ifs <;> exact List.cons_ne_nil _ _
  exact List.append_ne_nil_of_left_ne_nil hfirst _

namespace Modeline

/-! ### The text between the markers -/

/-- Text in front of a marker with no marker before that one, not even one that shares characters with it. -/
def Leads (lead : List Char) : Prop := ∀ place < lead.length, ¬ fence <+: (lead ++ fence).drop place

instance (lead : List Char) : Decidable (Leads lead) :=
  inferInstanceAs (Decidable (∀ place < lead.length, ¬ fence <+: (lead ++ fence).drop place))

/-- A line with a text between two markers. -/
def enclosed (lead body rest : List Char) : List Char := lead ++ fence ++ ' ' :: body ++ ' ' :: fence ++ rest

/-- No marker goes past a space. -/
theorem fence_prefix_of_append {text rest : List Char} (hfence : fence <+: text ++ ' ' :: rest) : fence <+: text := by
  obtain hlt | hle := Nat.lt_or_ge text.length fence.length
  · have hspace : text ++ [' '] <+: fence := by
      refine List.prefix_of_prefix_length_le ⟨rest, by simp⟩ hfence ?_
      rwa [List.length_append, List.length_singleton]
    exact absurd (hspace.subset (List.mem_append_right text (List.mem_singleton_self ' '))) (by decide)
  · exact List.prefix_of_prefix_length_le hfence (List.prefix_append text _) hle

theorem dropWhile_enclosed (body rest : List Char) :
    (body ++ ' ' :: fence ++ rest).dropWhile Text.isSpace =
      if body.all Text.isSpace then fence ++ rest else body.dropWhile Text.isSpace ++ ' ' :: fence ++ rest := by
  have hmarker : (' ' :: fence ++ rest).dropWhile Text.isSpace = fence ++ rest := rfl
  have hempty : (body.dropWhile Text.isSpace).isEmpty = body.all Text.isSpace := by
    rw [Bool.eq_iff_iff, List.isEmpty_iff, List.dropWhile_eq_nil_iff, List.all_eq_true]
  rw [List.append_assoc, List.dropWhile_append, hempty, hmarker, List.append_assoc]

/-- The search for the closing marker takes a text without a marker whole, but for the white space at its end. -/
theorem untilFence?_enclosed {body : List Char} (hfence : ¬ fence <:+: body) (hfeed : '\n' ∉ body)
    (rest : List Char) :
    untilFence? (body ++ ' ' :: fence ++ rest) = some (Text.trimEnd Text.isSpace body) := by
  induction body with
  | nil => rfl
  | cons c body ih =>
    obtain ⟨hhere, hlater⟩ : ¬ fence <+: c :: body ∧ ¬ fence <:+: body := by
      rwa [List.infix_cons_iff, not_or] at hfence
    obtain ⟨hc, hbody⟩ : '\n' ≠ c ∧ '\n' ∉ body := by rwa [List.mem_cons, not_or] at hfeed
    rw [List.cons_append, List.cons_append, untilFence?, Text.trimEnd_cons, ← List.cons_append, ← List.cons_append,
      dropWhile_enclosed]
    cases hall : (c :: body).all Text.isSpace with
    | true =>
      have hclosed : fence.isPrefixOf (fence ++ rest) = true :=
        List.isPrefixOf_iff_prefix.mpr (List.prefix_append fence rest)
      rw [if_pos rfl, if_pos hclosed, if_pos rfl]
    | false =>
      have hopen : ¬ fence.isPrefixOf ((c :: body).dropWhile Text.isSpace ++ ' ' :: fence ++ rest) = true := by
        rw [List.isPrefixOf_iff_prefix, List.append_assoc]
        intro hopens
        have hwithin := (fence_prefix_of_append hopens).isInfix.trans (List.dropWhile_suffix _).isInfix
        exact hfence hwithin
      rw [if_neg Bool.false_ne_true, if_neg hopen, if_neg hc.symm, ih hlater hbody, if_neg Bool.false_ne_true]
      rfl

theorem contents?_cons_of_not {c : Char} {line : List Char} (hfence : ¬ fence <+: c :: line) :
    contents? (c :: line) = contents? line := by
  rw [contents?]
  simp only [List.isPrefixOf_iff_prefix, hfence, if_false, Option.none_or]

/-- The search for a modeline passes over what leads to its first marker. -/
theorem contents?_of_leads {lead rest contents : List Char} (hleads : Leads lead)
    (hrest : untilFence? (rest.dropWhile Text.isSpace) = some contents) :
    contents? (lead ++ fence ++ rest) = some contents := by
  induction lead with
  | nil =>
    have hfence : fence.isPrefixOf (fence ++ rest) = true :=
      List.isPrefixOf_iff_prefix.mpr (List.prefix_append fence rest)
    change (if fence.isPrefixOf (fence ++ rest) then untilFence? (rest.dropWhile Text.isSpace) else none).or _ = _
    rw [if_pos hfence, hrest, Option.some_or]
  | cons c lead ih =>
    have hhere : ¬ fence <+: c :: (lead ++ fence ++ rest) := by
      intro hopens
      refine hleads 0 (Nat.succ_pos _) (List.prefix_of_prefix_length_le hopens ⟨rest, by simp⟩ ?_)
      simp only [List.drop_zero, List.length_append]
      omega
    rw [List.cons_append, List.cons_append, contents?_cons_of_not hhere]
    exact ih fun place hplace => hleads (place + 1) (Nat.succ_lt_succ hplace)

theorem contents?_enclosed {lead body : List Char} (hleads : Leads lead) (hfence : ¬ fence <:+: body)
    (hfeed : '\n' ∉ body) (rest : List Char) : contents? (enclosed lead body rest) = some (Text.trim body) := by
  have hline : enclosed lead body rest = lead ++ fence ++ ' ' :: (body ++ ' ' :: fence ++ rest) := by simp [enclosed]
  rw [hline]
  apply contents?_of_leads hleads
  rw [List.dropWhile_cons_of_pos rfl, dropWhile_enclosed]
  split
  · rename_i hall
    have hblank : body.dropWhile Text.isSpace = [] := by
      rwa [List.dropWhile_eq_nil_iff, ← List.all_eq_true]
    rw [Text.trim, Text.trimStart, hblank]
    rfl
  · have hsuffix := List.dropWhile_suffix (l := body) Text.isSpace
    exact untilFence?_enclosed (fun hwithin => hfence (hwithin.trans hsuffix.isInfix))
      (fun hmem => hfeed (hsuffix.subset hmem)) rest

/-! ### Items -/

/-- What an item with a colon says: the name in front of its first colon, and the value behind it. -/
theorem readItem_colon (modeline : Modeline) {name : List Char} (hname : ':' ∉ name) (value : List Char) :
    readItem modeline (name ++ ':' :: value) =
      if Text.lower (Text.trim name) = modeName then { modeline with mode := some (Text.trim value) }
      else if (Text.lower (Text.trim name)).isEmpty then modeline
      else { modeline with
        assignments := assign modeline.assignments (Text.lower (Text.trim name)) (Text.trim value) } := by
  have hpass : ∀ c ∈ name, (c != ':') = true := by
    intro c hc
    exact bne_iff_ne.mpr fun heq => hname (heq ▸ hc)
  have hfront : (name ++ ':' :: value).takeWhile (· != ':') = name := by
    rw [List.takeWhile_append_of_pos hpass, List.takeWhile_cons_of_neg (by simp), List.append_nil]
  have hrear : (name ++ ':' :: value).dropWhile (· != ':') = ':' :: value := by
    rw [List.dropWhile_append_of_pos hpass, List.dropWhile_cons_of_neg (by simp)]
  rw [readItem, if_pos (by simp), hfront, hrear]
  rfl

theorem readItem_of_not_mem (modeline : Modeline) {item : List Char} (hcolon : ':' ∉ item) :
    readItem modeline item = modeline := by
  rw [readItem, if_neg hcolon]

theorem readItem_cons (modeline : Modeline) {c : Char} (hc : Text.isSpace c = true) (item : List Char) :
    readItem modeline (c :: item) = readItem modeline item := by
  have hne : ':' ≠ c := Text.ne_of_isSpace rfl hc
  by_cases hcolon : ':' ∈ item
  · obtain ⟨name, value, rfl, hname⟩ := List.eq_append_cons_of_mem hcolon
    rw [← List.cons_append, readItem_colon _ (by simp [hne, hname]), readItem_colon _ hname, Text.trim_cons hc]
  · rw [readItem_of_not_mem _ (by simp [hne, hcolon]), readItem_of_not_mem _ hcolon]

theorem readItem_concat (modeline : Modeline) {c : Char} (hc : Text.isSpace c = true) (item : List Char) :
    readItem modeline (item ++ [c]) = readItem modeline item := by
  have hne : ':' ≠ c := Text.ne_of_isSpace rfl hc
  by_cases hcolon : ':' ∈ item
  · obtain ⟨name, value, rfl, hname⟩ := List.eq_append_cons_of_mem hcolon
    rw [List.append_assoc, List.cons_append, readItem_colon _ hname, readItem_colon _ hname, Text.trim_concat hc]
  · rw [readItem_of_not_mem _ (by simp [hne, hcolon]), readItem_of_not_mem _ hcolon]

/-- Takes over the items of a text. -/
def readItems (modeline : Modeline) (text : List Char) : Modeline := (text.splitOn ';').foldl readItem modeline

theorem readItems_append (modeline : Modeline) (front rear : List Char) :
    readItems modeline (front ++ ';' :: rear) = readItems (readItems modeline front) rear := by
  rw [readItems, List.splitOn_append_cons_self, List.foldl_append, readItems, readItems]

theorem readItems_of_not_mem (modeline : Modeline) {item : List Char} (hitem : ';' ∉ item) :
    readItems modeline item = readItem modeline item := by
  rw [readItems, List.splitOn_eq_singleton hitem, List.foldl_cons, List.foldl_nil]

theorem readItems_cons (modeline : Modeline) {c : Char} (hc : Text.isSpace c = true) (text : List Char) :
    readItems modeline (c :: text) = readItems modeline text := by
  have hne : ';' ≠ c := Text.ne_of_isSpace rfl hc
  have hitem (item : List Char) (hsingle : ';' ∉ item) : readItems modeline (c :: item) = readItems modeline item := by
    rw [readItems_of_not_mem _ (by simp [hne, hsingle]), readItems_of_not_mem _ hsingle, readItem_cons _ hc]
  by_cases hmore : ';' ∈ text
  · obtain ⟨front, rear, rfl, hfront⟩ := List.eq_append_cons_of_mem hmore
    rw [← List.cons_append, readItems_append, readItems_append, hitem front hfront]
  · exact hitem text hmore

theorem readItems_concat (modeline : Modeline) {c : Char} (hc : Text.isSpace c = true) (text : List Char) :
    readItems modeline (text ++ [c]) = readItems modeline text := by
  have hne : ';' ≠ c := Text.ne_of_isSpace rfl hc
  by_cases hmore : ';' ∈ text
  · obtain ⟨front, rear, rfl, -⟩ := List.eq_append_cons_of_mem hmore
    rw [List.append_assoc, List.cons_append, readItems_append, readItems_append, readItems_concat _ hc rear]
  · rw [readItems_of_not_mem _ (by simp [hne, hmore]), readItems_of_not_mem _ hmore, readItem_concat _ hc]
termination_by text.length

/-- White space at the ends of what stands between the markers makes no difference. -/
theorem ofContents_trim (contents : List Char) : ofContents (Text.trim contents) = ofContents contents := by
  refine Text.eq_of_trim (fun c text hc => ?_) (fun c text hc => ?_) contents
  · have hcolon : ':' ∈ c :: text ↔ ':' ∈ text := by simp [Text.ne_of_isSpace (d := ':') rfl hc]
    change (if _ then readItems _ _ else _) = (if _ then readItems _ _ else _)
    simp only [hcolon, readItems_cons _ hc, Text.trim_cons hc]
  · have hcolon : ':' ∈ text ++ [c] ↔ ':' ∈ text := by simp [Text.ne_of_isSpace (d := ':') rfl hc]
    change (if _ then readItems _ _ else _) = (if _ then readItems _ _ else _)
    simp only [hcolon, readItems_concat _ hc, Text.trim_concat hc]

/-- A text without a marker is read from between two markers as it is by itself. -/
theorem ofLine_enclosed {lead body : List Char} (hleads : Leads lead) (hfence : ¬ fence <:+: body)
    (hfeed : '\n' ∉ body) (rest : List Char) : ofLine (enclosed lead body rest) = ofContents body := by
  rw [ofLine, contents?_enclosed hleads hfence hfeed]
  exact ofContents_trim body

/-! ### What is written and what is read -/

/-- A name and a value that can be told apart, and from other items. -/
structure Writable (item : List Char × List Char) : Prop where
  name_ne_nil : item.1 ≠ []
  trim_name : Text.trim item.1 = item.1
  colon : ':' ∉ item.1
  name_semicolon : ';' ∉ item.1
  trim_value : Text.trim item.2 = item.2
  value_semicolon : ';' ∉ item.2

/-- An item as it is written. -/
def itemText (item : List Char × List Char) : List Char := item.1 ++ ':' :: ' ' :: item.2

/-- Items as they are written between the markers. -/
def itemsText (items : List (List Char × List Char)) : List Char := [';', ' '].intercalate (items.map itemText)

variable {item : List Char × List Char} {items : List (List Char × List Char)}

theorem Writable.readItem_eq (hitem : Writable item) (modeline : Modeline) :
    readItem modeline (itemText item) =
      if Text.lower item.1 = modeName then { modeline with mode := some item.2 }
      else { modeline with assignments := assign modeline.assignments (Text.lower item.1) item.2 } := by
  have hname : (Text.lower item.1).isEmpty = false :=
    List.isEmpty_eq_false_iff.mpr (Text.lower_ne_nil hitem.name_ne_nil)
  rw [itemText, readItem_colon _ hitem.colon, hitem.trim_name, Text.trim_cons rfl, hitem.trim_value, hname]
  rfl

theorem Writable.semicolon (hitem : Writable item) : ';' ∉ itemText item := by
  simp [itemText, hitem.name_semicolon, hitem.value_semicolon]

theorem itemsText_cons_cons (first second : List Char × List Char) (items : List (List Char × List Char)) :
    itemsText (first :: second :: items) = itemText first ++ ';' :: ' ' :: itemsText (second :: items) := by
  rw [itemsText, List.map_cons, List.map_cons, List.intercalate_cons_cons, List.append_assoc]
  rfl

theorem itemsText_singleton (item : List Char × List Char) : itemsText [item] = itemText item :=
  List.intercalate_singleton

theorem colon_mem_itemsText (hitems : items ≠ []) : ':' ∈ itemsText items := by
  obtain ⟨item, items, rfl⟩ := List.exists_cons_of_ne_nil hitems
  have hcolon : ':' ∈ itemText item := by simp [itemText]
  cases items with
  | nil => rwa [itemsText_singleton]
  | cons second items =>
    rw [itemsText_cons_cons]
    exact List.mem_append_left _ hcolon

/-- Items are read one by one. -/
theorem readItems_itemsText (modeline : Modeline) (hitems : ∀ item ∈ items, Writable item) :
    readItems modeline (itemsText items) = (items.map itemText).foldl readItem modeline := by
  induction items generalizing modeline with
  | nil => rfl
  | cons item items ih =>
    obtain ⟨hitem, hrest⟩ := List.forall_mem_cons.mp hitems
    cases items with
    | nil =>
      rw [itemsText_singleton, readItems_of_not_mem _ hitem.semicolon]
      rfl
    | cons second items =>
      rw [itemsText_cons_cons, readItems_append, readItems_cons _ rfl, readItems_of_not_mem _ hitem.semicolon,
        ih _ hrest]
      rfl

theorem lookup_assign (assignments : List (List Char × List Char)) (name value other : List Char) :
    (assign assignments name value).lookup other = if other = name then some value else assignments.lookup other := by
  induction assignments with
  | nil =>
    rw [assign, List.lookup_cons]
    cases hother : other == name with
    | true => rw [if_pos (beq_iff_eq.mp hother)]
    | false => rw [if_neg (beq_eq_false_iff_ne.mp hother)]
  | cons entry assignments ih =>
    obtain ⟨key, old⟩ := entry
    rw [assign, List.lookup_cons]
    by_cases hkey : key = name
    · rw [if_pos hkey, List.lookup_cons, hkey]
      cases hother : other == name with
      | true => rw [if_pos (beq_iff_eq.mp hother)]
      | false => rw [if_neg (beq_eq_false_iff_ne.mp hother)]
    · rw [if_neg hkey, List.lookup_cons, ih]
      cases hother : other == key with
      | true =>
        have hname : other ≠ name := beq_iff_eq.mp hother ▸ hkey
        exact (if_neg hname).symm
      | false => rfl

theorem mem_assign_names_iff (assignments : List (List Char × List Char)) (name value other : List Char) :
    other ∈ (assign assignments name value).map (·.1) ↔ other = name ∨ other ∈ assignments.map (·.1) := by
  induction assignments with
  | nil => simp [assign]
  | cons entry assignments ih =>
    rw [assign]
    by_cases hkey : entry.1 = name
    · simp [hkey]
    · rw [if_neg hkey, List.map_cons, List.mem_cons, ih, List.map_cons, List.mem_cons, or_left_comm]

theorem assign_names_nodup {assignments : List (List Char × List Char)} (hnodup : (assignments.map (·.1)).Nodup)
    (name value : List Char) : ((assign assignments name value).map (·.1)).Nodup := by
  induction assignments with
  | nil => simp [assign]
  | cons entry assignments ih =>
    rw [assign]
    rw [List.map_cons, List.nodup_cons] at hnodup
    by_cases hkey : entry.1 = name
    · rw [if_pos hkey, List.map_cons, List.nodup_cons, ← hkey]
      exact hnodup
    · rw [if_neg hkey, List.map_cons, List.nodup_cons, mem_assign_names_iff, not_or]
      exact ⟨⟨hkey, hnodup.1⟩, ih hnodup.2⟩

/-- Gives the variables the values of items. -/
def assignAll (assignments items : List (List Char × List Char)) : List (List Char × List Char) :=
  items.foldl (fun assigned item => assign assigned (Text.lower item.1) item.2) assignments

/-- The last of the items with a name gives the value. -/
theorem lookup_assignAll (assignments items : List (List Char × List Char)) (name : List Char) :
    (assignAll assignments items).lookup name =
      ((items.map (Prod.map Text.lower id)).reverse.lookup name).or (assignments.lookup name) := by
  induction items generalizing assignments with
  | nil => rfl
  | cons item items ih =>
    have hstep : assignAll assignments (item :: items) =
        assignAll (assign assignments (Text.lower item.1) item.2) items := rfl
    rw [hstep, ih, lookup_assign, List.map_cons, List.reverse_cons, List.lookup_append, Option.or_assoc]
    congr 1
    change _ = (List.lookup name [(Text.lower item.1, item.2)]).or _
    rw [List.lookup_cons]
    cases hname : name == Text.lower item.1 with
    | true => rw [if_pos (beq_iff_eq.mp hname), Option.some_or]
    | false => rw [if_neg (beq_eq_false_iff_ne.mp hname), List.lookup_nil, Option.none_or]

theorem assignAll_names_nodup {assignments : List (List Char × List Char)} (items : List (List Char × List Char))
    (hnodup : (assignments.map (·.1)).Nodup) : ((assignAll assignments items).map (·.1)).Nodup := by
  induction items generalizing assignments with
  | nil => exact hnodup
  | cons item items ih => exact ih (assign_names_nodup hnodup ..)

/-- Items that do not give the mode leave it as it is. -/
theorem foldl_readItem_of_ne_mode (modeline : Modeline)
    (hitems : ∀ item ∈ items, Writable item ∧ Text.lower item.1 ≠ modeName) :
    (items.map itemText).foldl readItem modeline =
      { modeline with assignments := assignAll modeline.assignments items } := by
  induction items generalizing modeline with
  | nil => rfl
  | cons item items ih =>
    obtain ⟨⟨hitem, hname⟩, hrest⟩ := List.forall_mem_cons.mp hitems
    rw [List.map_cons, List.foldl_cons, hitem.readItem_eq, if_neg hname, ih _ hrest]
    rfl

theorem writable_mode {mode : List Char} (htrim : Text.trim mode = mode) (hsemicolon : ';' ∉ mode) :
    Writable (modeName, mode) :=
  have hname : modeName ≠ [] ∧ Text.trim modeName = modeName ∧ ':' ∉ modeName ∧ ';' ∉ modeName := by decide
  ⟨hname.1, hname.2.1, hname.2.2.1, hname.2.2.2, htrim, hsemicolon⟩

theorem ofContents_itemsText {mode : List Char} (hmode : Writable (modeName, mode))
    {front rear : List (List Char × List Char)}
    (hitems : ∀ item ∈ front ++ rear, Writable item ∧ Text.lower item.1 ≠ modeName) :
    ofContents (itemsText (front ++ (modeName, mode) :: rear)) = ⟨some mode, assignAll [] (front ++ rear)⟩ := by
  obtain ⟨hfront, hrear⟩ := List.forall_mem_append.mp hitems
  have hwritable : ∀ item ∈ front ++ (modeName, mode) :: rear, Writable item := by
    intro item hitem
    obtain hitem | hitem := List.mem_append.mp hitem
    · exact (hfront item hitem).1
    · obtain rfl | hitem := List.mem_cons.mp hitem
      · exact hmode
      · exact (hrear item hitem).1
  have hcolon : ':' ∈ itemsText (front ++ (modeName, mode) :: rear) := colon_mem_itemsText (by simp)
  have hassigned : assignAll (assignAll [] front) rear = assignAll [] (front ++ rear) := List.foldl_append.symm
  have hname : Text.lower modeName = modeName := by decide
  change (if _ then readItems _ _ else _) = _
  rw [if_pos hcolon, readItems_itemsText _ hwritable, List.map_append, List.foldl_append,
    foldl_readItem_of_ne_mode _ hfront, List.map_cons, List.foldl_cons, hmode.readItem_eq, if_pos hname,
    foldl_readItem_of_ne_mode _ hrear, hassigned]

/-- A modeline that was written is read back: its mode, wherever it stands among the items, and for each name the
value of the last item with that name in lower case. A mode that was written alone is read back too. -/
theorem ofLine_reads_back {lead mode : List Char} (hleads : Leads lead) (rest : List Char) (hmode : mode ≠ [])
    (htrim : Text.trim mode = mode) :
    (∀ front rear : List (List Char × List Char), ';' ∉ mode →
      (∀ item ∈ front ++ rear, Writable item ∧ Text.lower item.1 ≠ modeName) →
      ¬ fence <:+: itemsText (front ++ (modeName, mode) :: rear) →
      '\n' ∉ itemsText (front ++ (modeName, mode) :: rear) →
      ∃ assignments,
        ofLine (enclosed lead (itemsText (front ++ (modeName, mode) :: rear)) rest) = ⟨some mode, assignments⟩ ∧
        (assignments.map (·.1)).Nodup ∧
        ∀ name, assignments.lookup name = ((front ++ rear).map (Prod.map Text.lower id)).reverse.lookup name) ∧
    (':' ∉ mode → ¬ fence <:+: mode → '\n' ∉ mode → ofLine (enclosed lead mode rest) = ⟨some mode, []⟩) := by
  refine ⟨fun front rear hsemicolon hitems hfence hfeed => ⟨assignAll [] (front ++ rear), ?_, ?_, ?_⟩, ?_⟩
  · rw [ofLine_enclosed hleads hfence hfeed, ofContents_itemsText (writable_mode htrim hsemicolon) hitems]
  · exact assignAll_names_nodup _ List.nodup_nil
  · intro name
    rw [lookup_assignAll, List.lookup_nil, Option.or_none]
  · intro hcolon hfence hfeed
    have hname : mode.isEmpty = false := List.isEmpty_eq_false_iff.mpr hmode
    rw [ofLine_enclosed hleads hfence hfeed, ofContents, if_neg hcolon]
    simp only [htrim, hname, Bool.false_eq_true, if_false]

/-- Parts of markers stand next to the markers, one variable is given two values, and there are more markers behind. -/
theorem ofLine_reads_back_partsOfMarkers :
    (∃ assignments,
      ofLine "# *--*- Fill-*: a:b; mode: py-*; fill-*: *-c -*--*- -*-".toList = ⟨some "py-*".toList, assignments⟩ ∧
      (assignments.map (·.1)).Nodup ∧
      ∀ name, assignments.lookup name =
        [("fill-*".toList, "*-c".toList), ("fill-*".toList, "a:b".toList)].lookup name) ∧
    ofLine "# *--*- py-* -*--*- -*-".toList = ⟨some "py-*".toList, []⟩ := by
  have hline : "# *--*- Fill-*: a:b; mode: py-*; fill-*: *-c -*--*- -*-".toList =
      enclosed "# *-".toList (itemsText ([("Fill-*".toList, "a:b".toList)] ++
        (modeName, "py-*".toList) :: [("fill-*".toList, "*-c".toList)])) "-*- -*-".toList := by decide
  have hitems : ∀ item ∈ [("Fill-*".toList, "a:b".toList)] ++ [("fill-*".toList, "*-c".toList)],
      Writable item ∧ Text.lower item.1 ≠ modeName := by
    intro item hitem
    obtain rfl | rfl : item = ("Fill-*".toList, "a:b".toList) ∨ item = ("fill-*".toList, "*-c".toList) := by
      simpa using hitem
    · exact ⟨⟨by decide, by decide, by decide, by decide, by decide, by decide⟩, by decide⟩
    · exact ⟨⟨by decide, by decide, by decide, by decide, by decide, by decide⟩, by decide⟩
  obtain ⟨hlong, hshort⟩ := @ofLine_reads_back "# *-".toList "py-*".toList (by decide) "-*- -*-".toList
    (by decide) (by decide)
  rw [hline]
  exact ⟨hlong _ _ (by decide) hitems (by decide) (by decide), hshort (by decide) (by decide) (by decide)⟩

end Modeline

end ListingEditor
