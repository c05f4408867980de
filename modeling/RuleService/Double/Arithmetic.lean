import RuleService.Double.Basic

namespace RuleService.Double

/-- The exact sum of two finite numbers over the smaller exponent, as an integer. -/
def signedUnits (s : Bool) (m : Nat) (e floor : Int) : Int :=
  if s then -(units m e floor : Int) else units m e floor

def add : Double → Double → Double
  | nan, _ => nan
  | _, nan => nan
  | infinite s₁, infinite s₂ => if s₁ == s₂ then infinite s₁ else nan
  | infinite s, finite .. => infinite s
  | finite .., infinite s => infinite s
  | finite s₁ m₁ e₁, finite s₂ m₂ e₂ =>
    let floor := min e₁ e₂
    let total := signedUnits s₁ m₁ e₁ floor + signedUnits s₂ m₂ e₂ floor
    if total = 0 then zero (s₁ && s₂) else ofScaled (total < 0) total.natAbs floor

def sub (a b : Double) : Double := add a b.neg

def mul : Double → Double → Double
  | nan, _ => nan
  | _, nan => nan
  | infinite s₁, infinite s₂ => infinite (s₁ != s₂)
  | infinite s₁, finite s₂ m _ => if m = 0 then nan else infinite (s₁ != s₂)
  | finite s₁ m _, infinite s₂ => if m = 0 then nan else infinite (s₁ != s₂)
  | finite s₁ m₁ e₁, finite s₂ m₂ e₂ => ofScaled (s₁ != s₂) (m₁ * m₂) (e₁ + e₂)

def div : Double → Double → Double
  | nan, _ => nan
  | _, nan => nan
  | infinite _, infinite _ => nan
  | infinite s₁, finite s₂ _ _ => infinite (s₁ != s₂)
  | finite s₁ _ _, infinite s₂ => zero (s₁ != s₂)
  | finite s₁ m₁ e₁, finite s₂ m₂ e₂ =>
    if m₂ = 0 then (if m₁ = 0 then nan else infinite (s₁ != s₂))
    else
      let floor := min e₁ e₂
      ofRatio (s₁ != s₂) (units m₁ e₁ floor) (units m₂ e₂ floor)

/-- The remainder of the truncated quotient; it has the sign of the dividend. -/
def rem : Double → Double → Double
  | nan, _ => nan
  | _, nan => nan
  | infinite _, _ => nan
  | finite s m e, infinite _ => finite s m e
  | finite s₁ m₁ e₁, finite _ m₂ e₂ =>
    if m₂ = 0 then nan
    else
      let floor := min e₁ e₂
      ofScaled s₁ (units m₁ e₁ floor % units m₂ e₂ floor) floor

/-- A natural power, rounded once. -/
def powNat (d : Double) (n : Nat) : Double :=
  if n = 0 then ofInt 1
  else match d with
    | nan => nan
    | infinite s => infinite (s && n % 2 == 1)
    | finite s m e =>
      let s := s && n % 2 == 1
      if m = 0 then zero s
      else
        let top : Int := (m.log2 : Int) + e
        if 2100 ≤ top * n then infinite s
        else if (top + 1) * n ≤ -2200 then zero s
        else ofScaled s (Nat.pow m n) (e * n)

end RuleService.Double
