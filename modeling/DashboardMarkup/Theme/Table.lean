import DashboardMarkup.Number.Double
import DashboardMarkup.Text.Blank
import DashboardMarkup.Text.Case

/-!
# Themes

The built-in themes: a font, colors for each part of a dashboard, a shadow, a corner radius, and for
some a gradient or a backdrop filter.

* `find?_name`: every theme is found by its own name.
-/

namespace DashboardMarkup

/-- A theme. -/
structure Theme where
  name : String
  fontFamily : String
  primary : String
  background : String
  surface : String
  border : String
  textPrimary : String
  textSecondary : String
  bar : String
  line : String
  area : String
  pieBorder : String
  gridBackground : String
  gridBorder : String
  shadow : String
  radius : Double
  gradient : Option String
  backdrop : Option String
  deriving DecidableEq, Repr

namespace Theme

/-- Fonts in order of preference, Inter first. -/
def inter : String := "Inter, -apple-system, BlinkMacSystemFont, sans-serif"

/-- Fonts in order of preference, Open Sans first. -/
def openSans : String := "Open Sans, -apple-system, BlinkMacSystemFont, sans-serif"

/-- Fonts in order of preference, Roboto first. -/
def roboto : String := "Roboto, -apple-system, BlinkMacSystemFont, sans-serif"

/-- Fonts in order of preference, Lato first. -/
def lato : String := "Lato, -apple-system, BlinkMacSystemFont, sans-serif"

/-- Fonts in order of preference, Arial first. -/
def arial : String := "Arial, Helvetica, sans-serif"

/-- Fonts in order of preference, Georgia first. -/
def georgia : String := "Georgia, Times New Roman, serif"

/-- Fonts in order of preference, Segoe UI first. -/
def segoe : String := "Segoe UI, Tahoma, Geneva, sans-serif"

/-- Fonts in order of preference, Montserrat first. -/
def montserrat : String := "Montserrat, -apple-system, BlinkMacSystemFont, sans-serif"

/-- Fonts in order of preference, Playfair Display first. -/
def playfair : String := "Playfair Display, Georgia, serif"

/-- Fonts in order of preference, Merriweather first. -/
def merriweather : String := "Merriweather, Georgia, serif"

/-- The shadow of a dark theme. -/
def darkShadow : String := "0 4px 12px rgba(0, 0, 0, 0.5)"

/-- The shadow of a light theme. -/
def lightShadow : String := "0 4px 12px rgba(0, 0, 0, 0.15)"

/-- The theme `light`. -/
def light : Theme where
  name := "light"
  fontFamily := openSans
  primary := "#2563eb"
  background := "#ffffff"
  surface := "#f8fafc"
  border := "#e2e8f0"
  textPrimary := "#0f172a"
  textSecondary := "#475569"
  bar := "#1d4ed8"
  line := "#059669"
  area := "#7c2d12"
  pieBorder := "#ffffff"
  gridBackground := "#ffffff"
  gridBorder := "#e2e8f0"
  shadow := lightShadow
  radius := Double.ofInt 8
  gradient := none
  backdrop := none

/-- The theme `dark`. -/
def dark : Theme where
  name := "dark"
  fontFamily := inter
  primary := "#3b82f6"
  background := "#0a0a0a"
  surface := "#171717"
  border := "#404040"
  textPrimary := "#ffffff"
  textSecondary := "#d1d5db"
  bar := "#60a5fa"
  line := "#34d399"
  area := "#a78bfa"
  pieBorder := "#374151"
  gridBackground := "#171717"
  gridBorder := "#404040"
  shadow := darkShadow
  radius := Double.ofInt 8
  gradient := none
  backdrop := none

/-- The theme `blue`. -/
def blue : Theme where
  name := "blue"
  fontFamily := roboto
  primary := "#60a5fa"
  background := "#0f172a"
  surface := "#1e293b"
  border := "#475569"
  textPrimary := "#f1f5f9"
  textSecondary := "#cbd5e1"
  bar := "#3b82f6"
  line := "#60a5fa"
  area := "#1e40af"
  pieBorder := "#475569"
  gridBackground := "#1e293b"
  gridBorder := "#475569"
  shadow := darkShadow
  radius := Double.ofInt 8
  gradient := some "linear-gradient(180deg, #1e293b 0%, #0f172a 100%)"
  backdrop := none

/-- The theme `green`. -/
def green : Theme where
  name := "green"
  fontFamily := lato
  primary := "#34d399"
  background := "#064e3b"
  surface := "#065f46"
  border := "#059669"
  textPrimary := "#ecfdf5"
  textSecondary := "#d1fae5"
  bar := "#10b981"
  line := "#34d399"
  area := "#047857"
  pieBorder := "#059669"
  gridBackground := "#065f46"
  gridBorder := "#059669"
  shadow := darkShadow
  radius := Double.ofInt 8
  gradient := some "linear-gradient(180deg, #065f46 0%, #064e3b 100%)"
  backdrop := none

/-- The theme `corporate`. -/
def corporate : Theme where
  name := "corporate"
  fontFamily := arial
  primary := "#475569"
  background := "#f8fafc"
  surface := "#ffffff"
  border := "#e2e8f0"
  textPrimary := "#0f172a"
  textSecondary := "#334155"
  bar := "#475569"
  line := "#64748b"
  area := "#334155"
  pieBorder := "#e2e8f0"
  gridBackground := "#ffffff"
  gridBorder := "#e2e8f0"
  shadow := lightShadow
  radius := Double.ofInt 8
  gradient := none
  backdrop := none

/-- The theme `navy`. -/
def navy : Theme where
  name := "navy"
  fontFamily := georgia
  primary := "#1e40af"
  background := "#0f172a"
  surface := "#1e293b"
  border := "#475569"
  textPrimary := "#f1f5f9"
  textSecondary := "#cbd5e1"
  bar := "#1e40af"
  line := "#3b82f6"
  area := "#1e3a8a"
  pieBorder := "#475569"
  gridBackground := "#1e293b"
  gridBorder := "#475569"
  shadow := darkShadow
  radius := Double.ofInt 8
  gradient := some "linear-gradient(180deg, #1e293b 0%, #0f172a 100%)"
  backdrop := none

/-- The theme `slate`. -/
def slate : Theme where
  name := "slate"
  fontFamily := segoe
  primary := "#475569"
  background := "#0f172a"
  surface := "#1e293b"
  border := "#374151"
  textPrimary := "#f8fafc"
  textSecondary := "#e2e8f0"
  bar := "#64748b"
  line := "#94a3b8"
  area := "#475569"
  pieBorder := "#374151"
  gridBackground := "#1e293b"
  gridBorder := "#374151"
  shadow := darkShadow
  radius := Double.ofInt 8
  gradient := none
  backdrop := some "blur(8px)"

/-- The theme `forest`. -/
def forest : Theme where
  name := "forest"
  fontFamily := montserrat
  primary := "#16a34a"
  background := "#14532d"
  surface := "#166534"
  border := "#15803d"
  textPrimary := "#f0fdf4"
  textSecondary := "#dcfce7"
  bar := "#16a34a"
  line := "#22c55e"
  area := "#15803d"
  pieBorder := "#15803d"
  gridBackground := "#166534"
  gridBorder := "#15803d"
  shadow := darkShadow
  radius := Double.ofInt 8
  gradient := some "linear-gradient(180deg, #166534 0%, #14532d 100%)"
  backdrop := none

/-- The theme `burgundy`. -/
def burgundy : Theme where
  name := "burgundy"
  fontFamily := playfair
  primary := "#dc2626"
  background := "#450a0a"
  surface := "#7f1d1d"
  border := "#991b1b"
  textPrimary := "#fef2f2"
  textSecondary := "#fee2e2"
  bar := "#dc2626"
  line := "#ef4444"
  area := "#991b1b"
  pieBorder := "#991b1b"
  gridBackground := "#7f1d1d"
  gridBorder := "#991b1b"
  shadow := darkShadow
  radius := Double.ofInt 8
  gradient := some "linear-gradient(180deg, #7f1d1d 0%, #450a0a 100%)"
  backdrop := none

/-- The theme `platinum`. -/
def platinum : Theme where
  name := "platinum"
  fontFamily := merriweather
  primary := "#71717a"
  background := "#18181b"
  surface := "#27272a"
  border := "#3f3f46"
  textPrimary := "#fafafa"
  textSecondary := "#f4f4f5"
  bar := "#71717a"
  line := "#a1a1aa"
  area := "#52525b"
  pieBorder := "#3f3f46"
  gridBackground := "#27272a"
  gridBorder := "#3f3f46"
  shadow := darkShadow
  radius := Double.ofInt 8
  gradient := none
  backdrop := some "blur(12px)"

/-- All themes in the order in which they are listed. -/
def all : List Theme :=
  [light, dark, blue, green, corporate, navy, slate, forest, burgundy, platinum]

/-- The theme that a text names, in any case of letters. Two other names stand for the light theme. -/
def find? (text : String) : Option Theme :=
  let asked := lowered (trimmed text)
  let name := if asked == "branco" || asked == "white" then "light" else asked
  all.find? fun theme => theme.name == name

theorem find?_name : ∀ theme ∈ all, find? theme.name = some theme := by
  decide +kernel

end Theme

end DashboardMarkup
