import Collage.Report.Basic
import Collage.Settings.Form

/-!
# Reports of settings

What settings say, and what a renderer makes of them.
-/

namespace Collage

instance : Reported Duration :=
  ⟨fun span => reportList [span.wholeSeconds, span.restNanoseconds]⟩

instance : Reported AntiAliasSetting :=
  ⟨fun setting => reportList [setting.name, setting.samples]⟩

instance : Reported RenderSettings where
  report render := reportParts [
    ("width", render.width), ("height", render.height), ("antiAlias", render.antiAlias),
    ("maxTextureDimension", render.maxDimension), ("framesAhead", render.framesAhead),
    ("flipOutput", render.flipOutput), ("glslVersion", render.shaderVersion)]

instance : Reported SoundSettings where
  report sound := reportList [sound.volumeSmoothing, sound.peakDecay, sound.troughRecovery]

instance : Reported AudioSettings where
  report sound := reportList [sound.volumeSmoothing, sound.peakDecay, sound.troughRecovery]

instance : Reported RendererOptions where
  report options := reportParts [
    ("width", options.width), ("height", options.height), ("antiAlias", options.antiAlias),
    ("framesAhead", options.framesAhead), ("flipOutput", options.flipOutput),
    ("glslVersion", options.version), ("audio", options.audio)]

instance : Reported Settings where
  report settings := reportParts [
    ("version", settings.version), ("render", settings.render), ("audio", settings.audio),
    ("options", settings.options), ("maxDimension", settings.maxDimension)]

end Collage
