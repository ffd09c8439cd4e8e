import FleetMap.Markup
import FleetMap.Proofs.Number.Typed
import FleetMap.Proofs.Projection
import FleetMap.Proofs.Text.Entity

set_option autoImplicit false

namespace FleetMap

section Numbers

theorem mem_marks_replicate {n : Nat} {c : Char} (member : c ∈ List.replicate n '0') :
    c ∈ Numeral.marks := by
  rw [List.eq_of_mem_replicate member]
  decide

variable {s : Significant} (digits : ∀ c ∈ s.digits, c.isDigit = true)

include digits

theorem mem_marks_positional (l : Layout) {c : Char}
    (member : c ∈ l.positional s.digits s.exponent) : c ∈ Numeral.marks := by
  have digit : ∀ c ∈ s.digits, c ∈ Numeral.marks :=
    fun c member => Numeral.mem_marks_of_isDigit (digits c member)
  unfold Layout.positional at member
  split at member
  · rcases List.mem_cons.mp member with rfl | member
    · decide
    · rcases List.mem_cons.mp member with rfl | member
      · decide
      · exact (List.mem_append.mp member).elim mem_marks_replicate (digit c)
  · dsimp only at member
    split at member
    · rcases List.mem_append.mp member with body | mark
      · exact (List.mem_append.mp body).elim (digit c) mem_marks_replicate
      · split at mark
        · have marks : ['.', '0'] ⊆ Numeral.marks := by decide
          exact marks mark
        · exact nomatch mark
    · rcases List.mem_append.mp member with whole | fraction
      · exact digit c (List.mem_of_mem_take whole)
      · rcases List.mem_cons.mp fraction with rfl | fraction
        · decide
        · exact digit c (List.mem_of_mem_drop fraction)

theorem mem_marks_scientific (l : Layout) {c : Char}
    (member : c ∈ l.scientific s.digits s.exponent) : c ∈ Numeral.marks := by
  have digit : ∀ c ∈ s.digits, c ∈ Numeral.marks :=
    fun c member => Numeral.mem_marks_of_isDigit (digits c member)
  have size := isDigits_toDigits s.exponent.natAbs
  unfold Layout.scientific at member
  rcases List.mem_append.mp member with mantissa | exponent
  · split at mantissa
    · exact nomatch mantissa
    · rename_i given
      rw [given] at digit
      exact digit c mantissa
    · rename_i given
      rw [given] at digit
      rcases List.mem_cons.mp mantissa with rfl | mantissa
      · exact digit _ List.mem_cons_self
      · rcases List.mem_cons.mp mantissa with rfl | mantissa
        · decide
        · exact digit c (List.mem_cons_of_mem _ mantissa)
  · rcases List.mem_cons.mp exponent with rfl | exponent
    · decide
    · rcases List.mem_cons.mp exponent with rfl | exponent
      · split <;> decide
      · rcases List.mem_append.mp exponent with zeros | power
        · exact mem_marks_replicate zeros
        · exact Numeral.mem_marks_of_isDigit (size.digits c power)

/-- Every layout writes digits, signs, points and the letter of the exponent. -/
theorem mem_marks_write (l : Layout) (negative : Bool) {c : Char}
    (member : c ∈ l.write negative s) : c ∈ Numeral.marks := by
  have body : c ∈ (if l.least ≤ s.exponent ∧ s.exponent < l.bound then
      l.positional s.digits s.exponent else l.scientific s.digits s.exponent) →
      c ∈ Numeral.marks := by
    intro member
    split at member
    · exact mem_marks_positional digits l member
    · exact mem_marks_scientific digits l member
  unfold Layout.write at member
  dsimp only at member
  split at member
  · rcases List.mem_cons.mp member with rfl | member
    · decide
    · exact body member
  · exact body member

omit digits in
theorem isDigit_of_mem_rounded {places : Nat} {d : BinaryFloat} {c : Char}
    (member : c ∈ (Significant.rounded places d).digits) : c.isDigit = true := by
  unfold Significant.rounded at member
  split at member
  · rw [List.mem_singleton.mp member]
    decide
  · have dropped := List.mem_reverse.mp member
    have digit := List.mem_reverse.mp ((List.dropWhile_sublist _).subset dropped)
    exact (isDigits_toDigits _).digits c digit

omit digits in
/-- A number in a style sheet is written with marks or is one of the words for what is no number. -/
theorem mem_styleFloat {x : Float} {c : Char} (member : c ∈ (styleFloat x).toList) :
    c ∈ Numeral.marks ++ ['i', 'n', 'f', 'a'] := by
  have words : "nan".toList ++ "inf".toList ++ "-inf".toList ⊆
      Numeral.marks ++ ['i', 'n', 'f', 'a'] := by
    decide
  unfold styleFloat writeFloat at member
  split at member
  · rw [String.toList_ofList] at member
    exact List.mem_append_left _ (mem_marks_write (fun _ => isDigit_of_mem_rounded) _ _ member)
  · apply words
    split at member
    · exact List.mem_append_left _ (List.mem_append_left _ member)
    · split at member
      · exact List.mem_append_right _ member
      · exact List.mem_append_left _ (List.mem_append_right _ member)

end Numbers

namespace Markup

/-- The characters that begin and end tags and the values of attributes. -/
def delimiters : List Char := ['<', '>', '"']

def frame (text : String) : List Char := text.toList.filter (· ∈ delimiters)

def tag (attributes : Nat) : List Char := '<' :: (List.replicate (2 * attributes) '"' ++ ['>'])

/-- The delimiters of a sprite: an element with two attributes and, inside it, one with seven. -/
def template : List Char := tag 2 ++ tag 7 ++ tag 0 ++ tag 0

theorem frame_append (first second : String) :
    frame (first ++ second) = frame first ++ frame second := by
  unfold frame
  rw [String.toList_append, List.filter_append]

theorem frame_eq_nil {text : String} (free : ∀ c ∈ text.toList, c ∉ delimiters) : frame text = [] :=
  List.filter_eq_nil_iff.mpr fun c member => by simpa using free c member

theorem frame_styleFloat (x : Float) : frame (styleFloat x) = [] := by
  have marks : (Numeral.marks ++ ['i', 'n', 'f', 'a']).all (· ∉ delimiters) := by decide
  apply frame_eq_nil
  intro c member
  exact of_decide_eq_true (List.all_eq_true.mp marks c (mem_styleFloat member))

theorem frame_escape (text : String) : frame (Entity.escape text) = [] := by
  have reserved : delimiters ⊆ Entity.reserved := by decide
  refine frame_eq_nil fun c member known => ?_
  unfold Entity.escape at member
  rw [String.toList_ofList] at member
  exact Entity.not_reserved_of_mem_escapeChars member (reserved known)

/-- The delimiters of the markup are those of the template; the size, which is written twice, and
the color add theirs inside the last attribute. -/
theorem frame_markup (s : Sprite) :
    frame s.markup = tag 2 ++ '<' :: List.replicate 13 '"' ++ frame s.size ++ frame s.size ++
      frame s.color ++ '"' :: '>' :: (tag 0 ++ tag 0) := by
  have between : frame "; height: " = [] ∧ frame "; background-color: " = [] ∧
      frame "; transform: " = [] := ⟨rfl, rfl, rfl⟩
  have numbers : frame s.transform = [] := by
    unfold Sprite.transform
    simp only [frame_append, frame_styleFloat, List.append_nil]
    rfl
  unfold Sprite.markup
  simp only [frame_append, frame_styleFloat, frame_escape, between, numbers, List.append_nil]
  rfl

theorem count_frame {c : Char} (known : c ∈ delimiters) (text : String) :
    (frame text).count c = text.toList.count c :=
  List.count_filter (decide_eq_true known)

/-- Without delimiters in the size and the color, the markup has those of the template. -/
theorem frame_markup_eq_template_iff {s : Sprite} :
    frame s.markup = template ↔ frame s.size = [] ∧ frame s.color = [] := by
  constructor
  · intro same
    have lengths := congrArg List.length same
    rw [frame_markup] at lengths
    simp only [List.length_append, List.length_cons, List.length_replicate, tag, template,
      List.length_nil] at lengths
    exact ⟨List.eq_nil_of_length_eq_zero (by omega), List.eq_nil_of_length_eq_zero (by omega)⟩
  · rintro ⟨size, color⟩
    rw [frame_markup, size, color]
    rfl

theorem count_markup (s : Sprite) {c : Char} (known : c ∈ delimiters) :
    s.markup.toList.count c =
      template.count c + 2 * s.size.toList.count c + s.color.toList.count c := by
  have parts := congrArg (List.count c) (frame_markup s)
  simp only [List.count_append, List.count_cons, count_frame known] at parts
  have whole : template.count c = (tag 2).count c + (tag 7).count c + (tag 0).count c +
      (tag 0).count c := by
    simp only [template, List.count_append]
  have inner : (tag 7).count c = (List.replicate 13 '"').count c +
      (if '<' == c then 1 else 0) + (if '>' == c then 1 else 0) + (if '"' == c then 1 else 0) := by
    simp only [delimiters, List.mem_cons, List.not_mem_nil, or_false] at known
    rcases known with rfl | rfl | rfl
    all_goals rfl
  omega

end Markup

section Drawn

theorem Projection.mem_sprites {attempts : List (Except Misfit Sprite)} {sprite : Sprite} :
    sprite ∈ sprites attempts ↔ .ok sprite ∈ attempts := by
  induction attempts with
  | nil => simp [sprites]
  | cons attempt rest ih =>
    cases attempt with
    | ok other => simp [sprites, ih]
    | error m => simp [sprites, ih]

variable {s : Settings}

theorem mem_projectSprites {ds : List Device} {sprite : Sprite} :
    sprite ∈ projectSprites s ds ↔
      ∃ v ∈ (ds.filter (·.visible)).zipIdx, v.1.sprite s v.2 = .ok sprite := by
  rw [projectSprites, Projection.attempts, Projection.attemptsFrom_eq_map, Projection.mem_sprites,
    List.mem_map]

/-- Whatever is drawn shows some device and has its size and color from the settings. -/
theorem drawn_from_settings (colored : s.palette ≠ []) {ds : List Device} {sprite : Sprite}
    (drawn : sprite ∈ projectSprites s ds) :
    sprite.size = s.spriteSize ∧ sprite.color ∈ s.palette := by
  obtain ⟨⟨d, index⟩, _, made⟩ := mem_projectSprites.mp drawn
  rcases (Device.sprite_cases colored index d).2 with ⟨_, own, found, shows⟩ | ⟨_, m, misfit, _⟩
  · obtain rfl : own = sprite := Except.ok.inj (found.symm.trans made)
    exact ⟨shows.size, List.mem_of_getElem? shows.color⟩
  · exact nomatch misfit.symm.trans made

theorem Double.isFinite_mul_zero {x : Float} (finite : x.isFinite = true) :
    (x * 0).isFinite = true := by
  have zero : IsZero (x * 0) := by
    change IsZero (.ofModel (.pack (.mul Float.Model.Format.binary64 x.toModel.unpack
      (.zero .positive))))
    change x.toModel.unpack.isFinite = true at finite
    cases unpacked : x.toModel.unpack with
    | infinity s | notANumber =>
      rw [unpacked] at finite
      exact nomatch finite
    | zero s | finite s => exact isZero_pack_zero _
  rcases zero with zero | zero
  · rw [zero]
    rfl
  · rw [zero]
    rfl

/-- A visible device at the origin, which every finite scale leaves there. -/
def Device.resting : Device := ⟨"", true, some ⟨0, 0, 0⟩, some ⟨0, 0, 0⟩, none⟩

theorem Device.isPlaceable_resting (valid : s.Valid) : Device.resting.isPlaceable s = true := by
  have origin := Double.isFinite_mul_zero valid.scale_positive.1
  have zero : (0 : Float).isFinite = true := rfl
  change [s.scale * 0, s.scale * 0, s.scale * 0, 0, 0, 0].all Float.isFinite = true
  simp only [List.all_cons, List.all_nil, origin, zero, Bool.and_self]

/-- Every color of the palette is taken, if there are devices enough. -/
theorem exists_drawn_of_color (valid : s.Valid) {color : String} (offered : color ∈ s.palette) :
    ∃ ds, ∃ sprite ∈ projectSprites s ds, sprite.color = color := by
  obtain ⟨index, bound, rfl⟩ := List.getElem_of_mem offered
  rcases (Device.sprite_cases valid.palette_nonempty index Device.resting).2 with
    ⟨_, sprite, made, shows⟩ | ⟨unplaceable, _⟩
  · refine ⟨List.replicate (index + 1) Device.resting, sprite, ?_, ?_⟩
    · have visible : (List.replicate (index + 1) Device.resting).filter (·.visible) =
          List.replicate (index + 1) Device.resting :=
        List.filter_eq_self.mpr fun d member => by rw [List.eq_of_mem_replicate member]; rfl
      refine mem_projectSprites.mpr ⟨(Device.resting, index), ?_, made⟩
      rw [visible, List.mem_zipIdx_iff_getElem?, List.getElem?_replicate,
        if_pos (Nat.lt_succ_self _)]
    · have taken := shows.color
      rw [Nat.mod_eq_of_lt bound, List.getElem?_eq_getElem bound] at taken
      exact (Option.some.inj taken).symm
  · rw [Device.isPlaceable_resting valid] at unplaceable
    exact nomatch unplaceable

end Drawn

/-- No name and no label adds a delimiter to the markup of a sprite: whatever the devices are, there
are those of the template, twice those of the sprite size and those of the color, which come from
the settings. So valid settings keep the markup of every sprite to its two nested elements exactly
if neither the sprite size nor a color of the palette has a delimiter. -/
theorem markup_keeps_to_its_template {s : Settings} (valid : s.Valid) :
    (∀ stance ds scene, project s stance ds = some scene → ∀ sprite ∈ scene.sprites,
        sprite.color ∈ s.palette ∧
          ∀ delimiter, ∀ n, (delimiter, n) ∈ [('<', 4), ('>', 4), ('"', 18)] →
            sprite.markup.toList.count delimiter =
              n + 2 * s.spriteSize.toList.count delimiter + sprite.color.toList.count delimiter) ∧
      ((∀ stance ds scene, project s stance ds = some scene → ∀ sprite ∈ scene.sprites,
          Markup.frame sprite.markup =
            Markup.tag 2 ++ Markup.tag 7 ++ Markup.tag 0 ++ Markup.tag 0) ↔
        ∀ text ∈ s.spriteSize :: s.palette, Markup.frame text = []) := by
  have colored := valid.palette_nonempty
  refine ⟨?_, ?_, ?_⟩
  · intro stance ds scene projected sprite drawn
    rw [(project_eq_some projected).2.1] at drawn
    obtain ⟨size, color⟩ := drawn_from_settings colored drawn
    refine ⟨color, fun delimiter n listed => ?_⟩
    have known : delimiter ∈ Markup.delimiters ∧ Markup.template.count delimiter = n := by
      simp only [List.mem_cons, List.not_mem_nil, or_false, Prod.mk.injEq] at listed
      rcases listed with ⟨rfl, rfl⟩ | ⟨rfl, rfl⟩ | ⟨rfl, rfl⟩
      all_goals decide
    rw [Markup.count_markup sprite known.1, known.2, size]
  · intro kept text listed
    have free : ∀ color ∈ s.palette, Markup.frame s.spriteSize = [] ∧ Markup.frame color = [] := by
      intro color offered
      obtain ⟨ds, sprite, drawn, rfl⟩ := exists_drawn_of_color valid offered
      rw [← (drawn_from_settings colored drawn).1]
      exact Markup.frame_markup_eq_template_iff.mp
        (kept .initial ds _ (project_initial s ds) sprite drawn)
    rcases List.mem_cons.mp listed with rfl | offered
    · exact (free _ (List.head_mem colored)).1
    · exact (free text offered).2
  · intro free stance ds scene projected sprite drawn
    rw [(project_eq_some projected).2.1] at drawn
    obtain ⟨size, color⟩ := drawn_from_settings colored drawn
    refine Markup.frame_markup_eq_template_iff.mpr ⟨?_, ?_⟩
    · rw [size]
      exact free _ List.mem_cons_self
    · exact free _ (List.mem_cons_of_mem _ color)

def taggedFleet : List Device :=
  [⟨"<b id=\"van\">", true, some ⟨1, 2, 0⟩, some ⟨90, 0, 0⟩, none⟩,
    ⟨"buoy", true, some ⟨0, 0, 0⟩, some ⟨0, 0, 0⟩, none⟩]

theorem taggedFleet_keeps_to_the_template :
    Settings.standard.Valid ∧
      ∃ scene, project .standard .initial taggedFleet = some scene ∧
        scene.sprites.map (·.name) = ["<b id=\"van\">", "buoy"] ∧
        ∀ sprite ∈ scene.sprites,
          Markup.frame sprite.markup =
            Markup.tag 2 ++ Markup.tag 7 ++ Markup.tag 0 ++ Markup.tag 0 := by
  have kept := (markup_keeps_to_its_template Settings.standard_valid).2.mpr (by decide)
  have projected := project_initial .standard taggedFleet
  exact ⟨Settings.standard_valid, _, projected, by decide,
    kept .initial taggedFleet _ projected⟩

/-- The standard settings with a second color that ends its attribute and opens an element. -/
def taggedSettings : Settings := { Settings.standard with palette := ["red", "red\"><b>"] }

theorem color_opens_an_element :
    taggedSettings.Valid ∧
      ∃ scene, project taggedSettings .initial taggedFleet = some scene ∧
        scene.sprites.map (fun sprite => sprite.markup.toList.count '<') = [4, 5] := by
  refine ⟨⟨Settings.standard_valid.1, by decide, by decide, by decide,
    Settings.standard_valid.5⟩, _, project_initial taggedSettings taggedFleet, ?_⟩
  rw [List.map_congr_left fun sprite _ => Markup.count_markup sprite List.mem_cons_self]
  decide

namespace Markup

def after? (opening : List Char) : List Char → Option (List Char)
  | [] => none
  | c :: cs =>
    if opening.isPrefixOf (c :: cs) then some ((c :: cs).drop opening.length)
    else after? opening cs

/-- The text from the first opening to the next double quote, and what follows that quote. -/
def attribute? (opening : String) (cs : List Char) : Option (String × List Char) :=
  (after? opening.toList cs).bind fun text =>
    match text.dropWhile (· ≠ '"') with
    | [] => none
    | _ :: rest => some (String.ofList (text.takeWhile (· ≠ '"')), rest)

/-- The texts of the first `id` and of the first `aria-label` behind it. -/
def names? (markup : String) : Option (String × String) := do
  let (id, rest) ← attribute? "id=\"" markup.toList
  let (label, _) ← attribute? "aria-label=\"" rest
  return (id, label)

/-- An opening cannot stand where its second character does not. -/
theorem after?_append {a b : Char} (more : List Char) {cs rest : List Char} (absent : b ∉ cs)
    (next : rest.head? ≠ some b) : after? (a :: b :: more) (cs ++ rest) =
      after? (a :: b :: more) rest := by
  induction cs with
  | nil => rfl
  | cons c cs ih =>
    have absent_later : b ∉ cs := fun member => absent (List.mem_cons_of_mem c member)
    have elsewhere : (a :: b :: more).isPrefixOf (c :: (cs ++ rest)) = false := by
      rw [Bool.eq_false_iff, ne_eq, List.isPrefixOf_iff_prefix]
      rintro ⟨tail, split⟩
      have second := congrArg List.head? (List.cons.inj split).2
      cases cs with
      | nil => exact next second.symm
      | cons d cs =>
        obtain rfl := Option.some.inj second
        exact absent_later List.mem_cons_self
    rw [List.cons_append, after?, elsewhere, if_neg Bool.false_ne_true, ih absent_later]

theorem attribute?_of_after? {opening : String} {cs text rest : List Char}
    (found : after? opening.toList cs = some (text ++ '"' :: rest)) (free : '"' ∉ text) :
    attribute? opening cs = some (String.ofList text, rest) := by
  have inside : ∀ c ∈ text, decide (c ≠ '"') = true :=
    fun c member => decide_eq_true fun same => free (same ▸ member)
  unfold attribute?
  rw [found, Option.bind_some, List.takeWhile_append_of_pos inside,
    List.dropWhile_append_of_pos inside]
  simp

theorem after?_styleFloat (x : Float) {rest : List Char} (unit : rest.head? = some 'p') :
    after? "id=\"".toList ((styleFloat x).toList ++ rest) = after? "id=\"".toList rest := by
  refine after?_append ['=', '"'] (fun member => ?_) ?_
  · exact absurd (mem_styleFloat member) (by decide)
  · rw [unit]
    decide

/-- The first `id` is that of the inner element, whatever the place of the sprite. -/
theorem after?_place (left top : Float) (rest : List Char) :
    after? "id=\"".toList
      ("<div class=\"device-dragzone\" style=\"position: absolute; left: ".toList ++
        ((styleFloat left).toList ++ ("px; top: ".toList ++ ((styleFloat top).toList ++
          ("px;\"><div class=\"cube-sprite\" id=\"".toList ++ rest))))) = some rest := by
  have start : ∀ cs, after? "id=\"".toList
      ("<div class=\"device-dragzone\" style=\"position: absolute; left: ".toList ++ cs) =
        after? "id=\"".toList cs := fun _ => rfl
  have between : ∀ cs, after? "id=\"".toList ("px; top: ".toList ++ cs) =
      after? "id=\"".toList cs := fun _ => rfl
  have inner : after? "id=\"".toList ("px;\"><div class=\"cube-sprite\" id=\"".toList ++ rest) =
      some rest := rfl
  rw [start, after?_styleFloat left rfl, between, after?_styleFloat top rfl, inner]

theorem after?_role (rest : List Char) :
    after? "aria-label=\"".toList
      (" role=\"widget\" tabindex=\"1\" aria-live=\"polite\" aria-label=\"".toList ++ rest) =
        some rest := rfl

theorem not_mem_escape (text : String) : '"' ∉ (Entity.escape text).toList := by
  unfold Entity.escape
  rw [String.toList_ofList]
  exact fun member => Entity.not_reserved_of_mem_escapeChars member (by decide)

/-- The names that are read off the markup of a sprite are its own, escaped. -/
theorem names?_markup (s : Sprite) :
    names? s.markup = some (Entity.escape s.name, Entity.escape s.label) := by
  obtain ⟨rest, split⟩ : ∃ rest, s.markup.toList =
      "<div class=\"device-dragzone\" style=\"position: absolute; left: ".toList ++
        ((styleFloat s.left).toList ++ ("px; top: ".toList ++ ((styleFloat s.top).toList ++
          ("px;\"><div class=\"cube-sprite\" id=\"".toList ++ ((Entity.escape s.name).toList ++
            '"' :: (" role=\"widget\" tabindex=\"1\" aria-live=\"polite\" aria-label=\"".toList ++
              ((Entity.escape s.label).toList ++ '"' :: rest))))))) := by
    unfold Sprite.markup
    simp only [String.toList_append, List.append_assoc]
    exact ⟨_, rfl⟩
  unfold names?
  rw [split, attribute?_of_after? (after?_place _ _ _) (not_mem_escape s.name), Option.bind_eq_bind,
    Option.bind_some]
  dsimp only
  rw [attribute?_of_after? (after?_role _) (not_mem_escape s.label), String.ofList_toList,
    String.ofList_toList]
  rfl

end Markup

/-- The markup of a sprite tells its name and its label, whatever they contain. The `id` and the
`aria-label` that are read off it have no character that could end an attribute or a tag, their
entities stand for the name and the label, and sprites with different names have different `id`s. -/
theorem markup_tells_name_and_label (s : Sprite) :
    ∃ id label, Markup.names? s.markup = some (id, label) ∧
      (∀ c ∈ id.toList ++ label.toList, c ∉ ['<', '>', '"', '\'']) ∧
      Entity.unescape id = s.name ∧ Entity.unescape label = s.label ∧
      ∀ other : Sprite, other.name ≠ s.name →
        ∃ other_id other_label, Markup.names? other.markup = some (other_id, other_label) ∧
          other_id ≠ id := by
  refine ⟨_, _, Markup.names?_markup s, ?_, Entity.unescape_escape _, Entity.unescape_escape _, ?_⟩
  · intro c member
    rw [List.mem_append, Entity.escape, Entity.escape, String.toList_ofList,
      String.toList_ofList] at member
    exact member.elim Entity.not_reserved_of_mem_escapeChars Entity.not_reserved_of_mem_escapeChars
  · intro other different
    refine ⟨_, _, Markup.names?_markup other, fun same => different ?_⟩
    rw [← Entity.unescape_escape other.name, same, Entity.unescape_escape]

def Sprite.named (name : String) : Sprite :=
  ⟨name, "red", "30px", 0, 0, 0, 0, 0, 0, name⟩

/-- A name that looks like the entity of another name is told from it. -/
theorem lookalike_is_told_apart :
    (Sprite.named "<").name ≠ (Sprite.named "&lt;").name ∧
      ∃ id label other_id other_label,
        Markup.names? (Sprite.named "&lt;").markup = some (id, label) ∧
        Entity.unescape id = "&lt;" ∧
        Markup.names? (Sprite.named "<").markup = some (other_id, other_label) ∧
        other_id ≠ id := by
  have different : (Sprite.named "<").name ≠ (Sprite.named "&lt;").name := by decide
  obtain ⟨id, label, read, _, name, _, apart⟩ := markup_tells_name_and_label (.named "&lt;")
  obtain ⟨other_id, other_label, other_read, distinct⟩ := apart (.named "<") different
  exact ⟨different, id, label, other_id, other_label, read, name, other_read, distinct⟩

end FleetMap
