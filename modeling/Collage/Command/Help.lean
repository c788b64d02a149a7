import Collage.Command.Arguments

/-!
# Help

What the program says about itself and its commands.
-/

namespace Collage

/-- The name of the program and its version. -/
def versionText : String :=
  "shaderstack 0.1.0"

/-- The text of lines. -/
def helpText (lines : List String) : String :=
  String.intercalate "\n" lines

/-- The option that every command has. -/
def configHelp : List String :=
  ["      --config <PATH>  Settings file; defaults to `settings.toml` in the config " ++
      "directory [env:",
    "                       SHADERSTACK_CONFIG=]"]

/-- What the program is for. -/
def programHelp : List String :=
  ["Compile, inspect and render layered shader documents",
    "",
    "Usage: shaderstack [OPTIONS] <COMMAND>",
    "",
    "Commands:",
    "  compile   Compile a layer document and report diagnostics per layer",
    "  uniforms  Print the uniforms a shader declares, with their values, as JSON",
    "  render    Render frames of a layer document with the headless backend",
    "  help      Print this message or the help of the given subcommand(s)",
    "",
    "Options:"] ++
  configHelp ++
  ["  -h, --help           Print help",
    "  -V, --version        Print version"]

/-- What a command does and what can be said to it. -/
def CommandName.help : CommandName → List String
  | compile =>
    ["Compile a layer document and report diagnostics per layer",
      "",
      "Usage: shaderstack compile [OPTIONS] <DOCUMENT>",
      "",
      "Arguments:",
      "  <DOCUMENT>  Layer document (JSON)",
      "",
      "Options:"] ++
    configHelp ++
    ["      --emit <DIR>     Write every generated fragment program into this directory",
      "      --write-values   Write the compiled uniform values back into the document",
      "  -h, --help           Print help"]
  | uniforms =>
    ["Print the uniforms a shader declares, with their values, as JSON",
      "",
      "Usage: shaderstack uniforms [OPTIONS] <SHADER>",
      "",
      "Arguments:",
      "  <SHADER>  GLSL source of a single layer",
      "",
      "Options:"] ++
    configHelp ++
    ["  -h, --help           Print help"]
  | render =>
    ["Render frames of a layer document with the headless backend",
      "",
      "Usage: shaderstack render [OPTIONS] <DOCUMENT>",
      "",
      "Arguments:",
      "  <DOCUMENT>  Layer document (JSON)",
      "",
      "Options:",
      "      --config <PATH>        Settings file; defaults to `settings.toml` in the config directory",
      "                             [env: SHADERSTACK_CONFIG=]",
      "      --frames <N>           Number of frames to render [default: 1]",
      "      --size <WIDTHxHEIGHT>  Override the output resolution (e.g. `1280x720`)",
      "      --fps <FPS>            Frame rate used to advance the clock between frames [default: 60]",
      "      --anti-alias <MODE>    Supersampling factor: `off` or 2/4/8/16. Overrides the settings file",
      "      --output <PNG>         Export the final output as PNG",
      "      --previews <DIR>       Write a PNG preview of every shader layer into this directory",
      "  -h, --help                 Print help"]

/-- The text about a topic. -/
def HelpTopic.text : HelpTopic → String
  | program => helpText programHelp
  | command name => helpText name.help
  | help => helpText
      ["Print this message or the help of the given subcommand(s)",
        "",
        "Usage: shaderstack help [COMMAND]...",
        "",
        "Arguments:",
        "  [COMMAND]...  Print help for the subcommand(s)"]

end Collage
