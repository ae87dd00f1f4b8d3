import DartNodes.Command.Printer
import DartNodes.Proofs.Command.Reading
import DartNodes.Proofs.Text.Cut

/-! What is asked for on a command line is read back from any arguments that spell it, in whatever order the
flags are written. -/
namespace DartNodes.Command

/-- The configurations that the arguments of a command line can ask for. -/
structure Expressible (config : Config) : Prop where
  schema_nonempty : config.schema ≠ []
  base_nonempty : config.base? ≠ some []
  output_nonempty : config.output? ≠ some []
  tagField_fixed : config.target.tagField = "type"
  tagPrefix_fixed : config.target.tagPrefix = "AST_"
  imports_nonempty : config.target.imports? ≠ some []

/-- Values that give a flag what it has in a configuration. Only what it has anyway may be left out. -/
def Setting.Given (s : Setting) (config : Config) (values : List Text) : Prop :=
  values = s.valuesIn config ∨ values = [] ∧ s.valuesIn config = s.defaults

instance (s : Setting) (config : Config) (values : List Text) : Decidable (s.Given config values) :=
  inferInstanceAs (Decidable (_ ∨ _))

namespace Written

/-- The value that a flag is given. -/
def valueOf? (s : Setting) : Written → Option Text
  | setting t value => if t = s then some value else none
  | verbose => none

/-- All values that a flag is given, in order. -/
def valuesOf (s : Setting) (written : List Written) : List Text := written.filterMap (valueOf? s)

/-- The flags that are written, in any order, spell what is asked for. Each value is written once, and the
lines to import follow each other as they do in the configuration. -/
structure Spells (written : List Written) (invocation : Invocation) : Prop where
  values : ∀ s : Setting, s.Given invocation.config (valuesOf s written)
  verbose : written.count .verbose = if invocation.verbose then 1 else 0

@[simp] lemma valuesOf_nil (s : Setting) : valuesOf s [] = [] := rfl

lemma valuesOf_cons_setting (s t : Setting) (value : Text) (written : List Written) :
    valuesOf s (.setting t value :: written) =
      (if t = s then [value] else []) ++ valuesOf s written := by
  by_cases h : t = s <;> simp [valuesOf, valueOf?, h]

lemma mem_valuesOf {s : Setting} {value : Text} {written : List Written} :
    value ∈ valuesOf s written ↔ .setting s value ∈ written := by
  simp only [valuesOf, List.mem_filterMap]
  constructor
  · rintro ⟨w, hw, hvalue⟩
    cases w with
    | setting t v =>
      simp only [valueOf?, Option.ite_none_right_eq_some, Option.some.injEq] at hvalue
      obtain ⟨rfl, rfl⟩ := hvalue
      exact hw
    | verbose => cases hvalue
  · exact fun h => ⟨_, h, by simp [valueOf?]⟩

end Written

lemma Setting.notMem_name (s : Setting) : '=' ∉ s.name := by
  cases s <;> decide

/-- The first `=` parts the name from the value, which may be any text. -/
lemma Form.ofText_long {name value : Text} (h : '=' ∉ name) :
    ofText ('-' :: '-' :: (name ++ '=' :: value)) = .long name (some value) := by
  have hcut : Text.cut? (name ++ '=' :: value) "=" = some (name, value) :=
    Text.cut?_singleton_eq_some.mpr ⟨rfl, h⟩
  obtain ⟨c, rest, hrest⟩ := List.exists_cons_of_ne_nil (show name ++ '=' :: value ≠ [] by simp)
  rw [hrest] at hcut ⊢
  rw [ofText, hcut]
  exact List.cons_ne_nil c rest

namespace Reading

variable {r : Reading} {s : Setting}

lemma isSet_iff : r.isSet s = true ↔ r.valuesOf s ≠ [] := by
  simp [isSet, valuesOf, List.filterMap_eq_nil_iff]

/-- A flag takes a value if it has none yet, or may be repeated. -/
lemma accept_eq_ok {value : Text} (hfree : s.isRepeatable = false → r.valuesOf s = [])
    (haccepts : s.accepts value = true) :
    r.accept s (some value) = .ok { r with values := r.values ++ [(s, value)] } := by
  have hnew : ¬ (r.isSet s = true ∧ ¬ s.isRepeatable = true) := by
    rintro ⟨hset, honce⟩
    exact isSet_iff.mp hset (hfree (Bool.eq_false_iff.mpr honce))
  rw [accept, if_neg hnew, if_pos haccepts]

lemma valuesOf_append (t : Setting) (value : Text) :
    valuesOf { r with values := r.values ++ [(t, value)] } s =
      r.valuesOf s ++ if t = s then [value] else [] := by
  by_cases h : t = s <;> simp [valuesOf, h]

/-- A flag that is written with its value is read by itself. -/
lemma onArguments_setting (hpending : r.pending? = none) (value : Text) (rest : List Text) :
    r.onArguments ((Written.setting s value).argument :: rest) =
      (r.accept s (some value) >>= fun next => next.onArguments rest) := by
  have hname : Flag.ofName? s.name = some (.setting s) := Flag.ofName?_name (.setting s)
  have hform : Form.ofText (Written.setting s value).argument = .long s.name (some value) :=
    Form.ofText_long s.notMem_name
  conv_lhs => unfold onArguments
  simp only [hform, onLong, hname, onSetting, settle, hpending]
  rfl

lemma onArguments_verbose (hpending : r.pending? = none) (hverbose : r.verbose = false)
    (rest : List Text) : r.onArguments (Written.verbose.argument :: rest) =
      onArguments { r with verbose := true } rest := by
  have hform : Form.ofText Written.verbose.argument = .long "verbose" none := by decide
  have hname : Flag.ofName? "verbose" = some (.switch .verbose) := by decide
  conv_lhs => unfold onArguments
  simp only [hform, onLong, hname, onSwitch, settle, hpending]
  simp [hverbose, hpending, bind, Except.bind, pure, Except.pure]

/-- The arguments are read one by one, and each value comes behind the ones its flag has. A flag that is not
repeated has one value at most, those that were read before included. -/
lemma exists_onArguments {written : List Written} (hpending : r.pending? = none)
    (haccepts : ∀ s, ∀ value ∈ Written.valuesOf s written, s.accepts value = true)
    (honce : ∀ s, s.isRepeatable = false →
      (r.valuesOf s).length + (Written.valuesOf s written).length ≤ 1)
    (hverbose : written.count .verbose + (if r.verbose then 1 else 0) ≤ 1) :
    ∃ last, r.onArguments (written.map Written.argument) = .ok last ∧
      (∀ s, last.valuesOf s = r.valuesOf s ++ Written.valuesOf s written) ∧
      last.verbose = (r.verbose || decide (.verbose ∈ written)) := by
  induction written generalizing r with
  | nil => exact ⟨r, by simp [onArguments, settle, hpending], by simp, by simp⟩
  | cons w rest ih =>
    cases w with
    | setting t value =>
      have hfree : t.isRepeatable = false → r.valuesOf t = [] := by
        intro h
        have := honce t h
        simp only [Written.valuesOf_cons_setting, if_true, List.length_append,
          List.length_cons] at this
        exact List.length_eq_zero_iff.mp (by omega)
      have haccept := accept_eq_ok hfree (haccepts t value (by simp [Written.mem_valuesOf]))
      obtain ⟨last, hlast, hvalues, hlastVerbose⟩ :=
        ih (r := { r with values := r.values ++ [(t, value)] }) hpending
          (fun s v hv => haccepts s v (by simp [Written.valuesOf_cons_setting, hv]))
          (fun s hs => by
            have := honce s hs
            rw [Written.valuesOf_cons_setting, List.length_append] at this
            rw [valuesOf_append, List.length_append]
            omega)
          (by simpa using hverbose)
      refine ⟨last, ?_, fun s => ?_, ?_⟩
      · rw [List.map_cons, onArguments_setting hpending, haccept]
        exact hlast
      · rw [hvalues, valuesOf_append, Written.valuesOf_cons_setting, List.append_assoc]
      · simpa using hlastVerbose
    | verbose =>
      have hquiet : r.verbose = false := by
        cases h : r.verbose with
        | false => rfl
        | true => simp [h] at hverbose
      obtain ⟨last, hlast, hvalues, hlastVerbose⟩ :=
        ih (r := { r with verbose := true }) hpending haccepts honce
          (by simpa [hquiet] using hverbose)
      refine ⟨last, ?_, hvalues, ?_⟩
      · rw [List.map_cons, onArguments_verbose hpending hquiet]
        exact hlast
      · simpa using hlastVerbose

/-- A member that is given, or may be left out, is the first value of its flag. -/
lemma value?_eq {config : Config} {member? : Option Text}
    (hgiven : s.Given config (r.valuesOf s)) (hin : s.valuesIn config = member?.toList)
    (hdefaults : s.defaults = []) : r.value? s = member? := by
  have hvalues : r.valuesOf s = member?.toList := by
    rcases hgiven with h | ⟨h, hsame⟩
    · rw [h, hin]
    · rw [h, ← hin, hsame, hdefaults]
  rw [value?_eq_head?, hvalues, Option.head?_toList]

lemma getD_value?_eq {config : Config} {member default : Text}
    (hgiven : s.Given config (r.valuesOf s)) (hin : s.valuesIn config = [member])
    (hdefaults : s.defaults = [default]) : (r.value? s).getD default = member := by
  rw [value?_eq_head?]
  rcases hgiven with h | ⟨h, hsame⟩
  · rw [h, hin]
    rfl
  · rw [h]
    exact (List.singleton_inj.mp (hin.symm.trans (hsame.trans hdefaults))).symm

/-- The names of a reading. No import lines are the same as none that were given. -/
lemma target_eq {config : Config} (hexpressible : Expressible config)
    (hgiven : ∀ s : Setting, s.Given config (r.valuesOf s)) : r.target = config.target := by
  obtain ⟨schema, base?, output?, strategy, marker,
    ⟨baseClass, interface, enumName, tagField, dispatcher, tagPrefix, imports?⟩⟩ := config
  obtain ⟨-, -, -, hfield, hprefix, hlinesNe⟩ := hexpressible
  simp only at hfield hprefix hlinesNe
  have hbaseClass : (r.value? .baseClass).getD "ASTNode" = baseClass :=
    getD_value?_eq (hgiven .baseClass) rfl rfl
  have hinterface : (r.value? .interface).getD "AST" = interface :=
    getD_value?_eq (hgiven .interface) rfl rfl
  have henumName : (r.value? .enumName).getD "ASTType" = enumName :=
    getD_value?_eq (hgiven .enumName) rfl rfl
  have hdispatcher : (r.value? .dispatcher).getD "initAST" = dispatcher :=
    getD_value?_eq (hgiven .dispatcher) rfl rfl
  have hlines : r.valuesOf .importLine = imports?.getD [] := by
    rcases hgiven .importLine with h | ⟨h, hsame⟩
    · exact h
    · exact h.trans hsame.symm
  have himports :
      (if r.valuesOf .importLine = [] then none else some (r.valuesOf .importLine)) = imports? := by
    cases imports? with
    | none => simp [hlines]
    | some lines =>
      have hne : lines ≠ [] := fun h => hlinesNe (congrArg some h)
      simp [hlines, hne]
  simp only [target, defaultTagPrefix, hbaseClass, hinterface, henumName, hdispatcher, himports,
    hfield, hprefix]

/-- A reading that gives every flag what it has in a configuration is read as that configuration. -/
lemma ofReading_eq_ok {invocation : Invocation} (hexpressible : Expressible invocation.config)
    (hgiven : ∀ s : Setting, s.Given invocation.config (r.valuesOf s))
    (hverbose : r.verbose = invocation.verbose) : Invocation.ofReading r = .ok invocation := by
  obtain ⟨⟨schema, base?, output?, strategy, marker, target⟩, verbose⟩ := invocation
  have hschema : r.value? .schema = some schema := value?_eq (hgiven .schema) rfl rfl
  have hbase : r.value? .base = base? := value?_eq (hgiven .base) rfl rfl
  have hout : r.value? .out = output? := value?_eq (hgiven .out) rfl rfl
  have hstrategy : ((r.value? .strategy).bind Strategy.ofName?).getD .typed = strategy := by
    have hname : (r.value? .strategy).getD "typed" = strategy.name :=
      getD_value?_eq (hgiven .strategy) rfl rfl
    cases hvalue : r.value? .strategy with
    | none =>
      rw [hvalue] at hname
      have hfound : Strategy.ofName? (Strategy.name .typed) = Strategy.ofName? strategy.name :=
        congrArg Strategy.ofName? hname
      simpa using hfound
    | some value =>
      rw [hvalue] at hname
      simp only [Option.getD_some] at hname
      simp [hname]
  have hmarker : (r.value? .marker).getD defaultMarker = marker :=
    getD_value?_eq (hgiven .marker) rfl rfl
  have htarget : r.target = target := target_eq hexpressible hgiven
  unfold Invocation.ofReading
  rw [hschema]
  simp only [hbase, hout, hstrategy, hmarker, htarget, hverbose]

end Reading

namespace Setting

variable {s : Setting} {config : Config} {values : List Text}

lemma accepts_of_expressible (h : Expressible config) {value : Text} (hvalue : value ∈ s.valuesIn config) :
    s.accepts value = true := by
  cases s <;> simp only [valuesIn, List.mem_singleton, Option.mem_toList] at hvalue
  case schema => simpa [accepts, hvalue] using h.schema_nonempty
  case base => simpa [accepts] using fun hempty => h.base_nonempty (hvalue.trans (congrArg some hempty))
  case out => simpa [accepts] using fun hempty => h.output_nonempty (hvalue.trans (congrArg some hempty))
  case strategy => simp [accepts, hvalue]
  all_goals rfl

lemma length_valuesIn_le (h : s.isRepeatable = false) : (s.valuesIn config).length ≤ 1 := by
  cases s <;> simp [valuesIn, isRepeatable, Option.length_toList_le] at h ⊢

lemma Given.subset (h : s.Given config values) : values ⊆ s.valuesIn config := by
  rcases h with rfl | ⟨rfl, -⟩
  · exact List.Subset.refl _
  · exact List.nil_subset _

lemma Given.length_le (h : s.Given config values) : values.length ≤ (s.valuesIn config).length := by
  rcases h with rfl | ⟨rfl, -⟩
  · exact Nat.le_refl _
  · exact Nat.zero_le _

end Setting

lemma expressible_of_ofArguments {arguments : List Text} {invocation : Invocation}
    (h : Invocation.ofArguments arguments = .ok invocation) : Expressible invocation.config := by
  obtain ⟨r, hr, h⟩ := Outcome.bind_eq_ok.mp h
  have haccepts : ∀ {s : Setting} {value : Text}, r.value? s = some value → s.accepts value = true := by
    intro s value hvalue
    obtain ⟨more, hmore, haccepts⟩ := Reading.takes_onArguments hr
    have hmem := Reading.mem_of_value? hvalue
    rw [hmore] at hmem
    exact haccepts (s, value) hmem
  unfold Invocation.ofReading at h
  split at h
  · cases h
  · rename_i schema hschema
    cases h
    refine ⟨?_, ?_, ?_, rfl, rfl, ?_⟩
    · simpa [Setting.accepts] using haccepts hschema
    · exact fun hempty => by simpa [Setting.accepts] using haccepts hempty
    · exact fun hempty => by simpa [Setting.accepts] using haccepts hempty
    · by_cases hnone : r.valuesOf .importLine = [] <;> simp [Reading.target, hnone]

lemma ofArguments_eq_ok {written : List Written} {invocation : Invocation}
    (hexpressible : Expressible invocation.config) (h : Written.Spells written invocation) :
    Invocation.ofArguments (written.map Written.argument) = .ok invocation := by
  have hcount := h.verbose
  have honce : ∀ s : Setting, s.isRepeatable = false → (Written.valuesOf s written).length ≤ 1 :=
    fun s hs => Nat.le_trans (h.values s).length_le (Setting.length_valuesIn_le hs)
  obtain ⟨r, hr, hvalues, hverbose⟩ := Reading.exists_onArguments (r := {}) rfl
    (fun s value hvalue => Setting.accepts_of_expressible hexpressible ((h.values s).subset hvalue))
    (by simpa [Reading.valuesOf] using honce)
    (by cases hasked : invocation.verbose <;> simp [hcount, hasked])
  have hgiven : ∀ s : Setting, s.Given invocation.config (r.valuesOf s) := by
    intro s
    rw [hvalues]
    exact h.values s
  have hsame : r.verbose = invocation.verbose := by
    rw [hverbose]
    cases hasked : invocation.verbose with
    | false => simpa [hasked, List.count_eq_zero] using hcount
    | true =>
      have : 0 < written.count .verbose := by simp [hcount, hasked]
      simpa using List.count_pos_iff.mp this
  unfold Invocation.ofArguments
  rw [hr]
  exact Reading.ofReading_eq_ok hexpressible hgiven hsame

namespace Written

lemma valuesOf_append (s : Setting) (written others : List Written) :
    valuesOf s (written ++ others) = valuesOf s written ++ valuesOf s others :=
  List.filterMap_append

lemma valuesOf_map_setting (s t : Setting) (values : List Text) :
    valuesOf s (values.map (.setting t)) = if t = s then values else [] := by
  induction values with
  | nil => simp
  | cons value rest ih =>
    rw [List.map_cons, valuesOf_cons_setting, ih]
    by_cases h : t = s <;> simp [h]

/-- Everything written out spells what is asked for. -/
lemma spells_written (invocation : Invocation) : Spells invocation.written invocation := by
  refine ⟨fun s => .inl ?_, ?_⟩
  · have hlast : valuesOf s (if invocation.verbose then [verbose] else []) = [] := by
      cases invocation.verbose <;> rfl
    rw [Invocation.written, valuesOf_append, hlast]
    cases s <;> simp [Setting.all, valuesOf_append, valuesOf_map_setting]
  · have hfirst : (Setting.all.flatMap fun s =>
        (s.valuesIn invocation.config).map (setting s)).count .verbose = 0 := by
      simp [List.count_eq_zero]
    rw [Invocation.written, List.count_append, hfirst]
    cases invocation.verbose <;> simp

end Written

/-- What is asked for is expressible, and every expressible run is asked for by any arguments that spell
it. -/
theorem invocation_roundTrip :
    (∀ config, Expressible config ↔
      ∃ arguments verbose, Invocation.ofArguments arguments = .ok ⟨config, verbose⟩) ∧
    ∀ invocation, Expressible invocation.config → ∀ written, Written.Spells written invocation →
      Invocation.ofArguments (written.map Written.argument) = .ok invocation := by
  refine ⟨fun config => ⟨fun h => ?_, ?_⟩, fun _ h _ hspells => ofArguments_eq_ok h hspells⟩
  · exact ⟨_, false, ofArguments_eq_ok h (Written.spells_written ⟨config, false⟩)⟩
  · rintro ⟨arguments, verbose, h⟩
    exact expressible_of_ofArguments h

theorem invocation_roundTrip_shuffled :
    Invocation.ofArguments ["--import=b", "--marker=--=", "--verbose", "--import=", "--strategy=typed",
      "--schema=-s=1", "--import=b"] =
        .ok ⟨{ schema := "-s=1", marker := "--=", target := { imports? := some ["b", "", "b"] } }, true⟩ :=
  invocation_roundTrip.2 ⟨_, true⟩ ⟨by decide, by decide, by decide, rfl, rfl, by decide⟩
    [.setting .importLine "b", .setting .marker "--=", .verbose, .setting .importLine "",
      .setting .strategy "typed", .setting .schema "-s=1", .setting .importLine "b"]
    ⟨fun s => by cases s <;> decide, by decide⟩

end DartNodes.Command
