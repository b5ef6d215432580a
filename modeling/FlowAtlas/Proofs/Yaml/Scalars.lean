import FlowAtlas.Yaml.Scalar
/-! Giving a scalar its value does not run out of fuel, since it needs none. -/
namespace FlowAtlas.Yaml.Scalar

variable {α β : Type}

def Ready (result : Except ScalarFault α) : Prop := result ≠ .error .endless

theorem Ready.andThen {step : Except ScalarFault α} {next : α → Except ScalarFault β} (first : Ready step)
    (second : ∀ a, Ready (next a)) : Ready (step >>= next) := by
  cases step with
  | error fault => exact fun endless => first (congrArg _ (Except.error.inj endless))
  | ok a => exact second a

theorem Ready.mapM {γ : Type} {step : γ → Except ScalarFault β} (each : ∀ item, Ready (step item))
    (items : List γ) : Ready (items.mapM step) := by
  induction items with
  | nil => nofun
  | cons item rest ih =>
    rw [List.mapM_cons]
    exact (each item).andThen fun _ => ih.andThen fun _ => nofun

theorem signedReady (s : List Char) : Ready (signed s) := by
  unfold signed
  split <;> nofun

theorem integerReady (base : Nat) (s : List Char) : Ready (integer base s) := by
  unfold integer
  split <;> nofun

theorem decimalReady (s : List Char) : Ready (decimal s) := by
  unfold decimal
  split <;> nofun

theorem boolReady (text : String) : Ready (bool text) := by
  simp only [bool]
  split
  · nofun
  · split <;> nofun

theorem unsignedIntReady (s : List Char) : Ready (unsignedInt s) := by
  unfold unsignedInt
  split
  · nofun
  · nofun
  · exact integerReady _ _
  · exact integerReady _ _
  · exact integerReady _ _
  · split
    · exact (Ready.mapM (integerReady 10) _).andThen fun _ => nofun
    · exact integerReady _ _

theorem intReady (text : String) : Ready (int text) :=
  (signedReady _).andThen fun (_, s) => (unsignedIntReady s).andThen fun _ => nofun

theorem unsignedFloatReady (s : List Char) : Ready (unsignedFloat s) := by
  unfold unsignedFloat
  split
  · nofun
  · split
    · nofun
    · split
      · refine (Ready.mapM decimalReady _).andThen fun places => ?_
        split <;> nofun
      · exact decimalReady _

theorem floatReady (text : String) : Ready (float text) :=
  (signedReady _).andThen fun (_, s) => (unsignedFloatReady s).andThen fun _ => nofun

theorem refuseIfReady (wrong : Prop) [Decidable wrong] {fault : ScalarFault} (other : fault ≠ .endless) :
    Ready (refuseIf wrong fault) := by
  unfold refuseIf
  split
  · exact fun endless => other (Except.error.inj endless)
  · nofun

theorem checkTimeReady (time : Option DayTime) : Ready (checkTime time) := by
  cases time with
  | none => nofun
  | some time =>
    refine (refuseIfReady _ (by simp)).andThen fun _ => ?_
    refine (refuseIfReady _ (by simp)).andThen fun _ => ?_
    exact refuseIfReady _ (by simp)

theorem timestampReady (text : String) : Ready (timestamp text) := by
  unfold timestamp
  split
  · nofun
  · rename_i t _
    have offset : Ready (checkOffset t.offset) := by
      cases t.offset with
      | none => nofun
      | some seconds => exact refuseIfReady _ (by simp)
    refine offset.andThen fun _ => ?_
    refine (refuseIfReady _ (by simp)).andThen fun _ => ?_
    refine (refuseIfReady _ (by simp)).andThen fun _ => ?_
    refine (refuseIfReady _ (by simp)).andThen fun _ => ?_
    exact (checkTimeReady t.time).andThen fun _ => nofun

end FlowAtlas.Yaml.Scalar
