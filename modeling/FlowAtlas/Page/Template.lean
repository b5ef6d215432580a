/-! The page: literal pieces of text with places between them for the title, the address of the drawing
library, the inventory and the diagrams. In the text of the template each place stands as its mark. -/
namespace FlowAtlas.Page

inductive Place
  | title
  | library
  | inventory
  | diagrams
  deriving DecidableEq, Repr

namespace Place

def all : List Place := [title, library, inventory, diagrams]

def mark : Place → String
  | title => "__TITLE__"
  | library => "__MERMAID_CDN__"
  | inventory => "__ANALYSIS_DATA__"
  | diagrams => "__DIAGRAM_DATA__"

end Place

inductive Piece
  | literal (text : String)
  | place (place : Place)
  deriving DecidableEq, Repr

def Piece.text : Piece → String
  | literal text => text
  | place p => p.mark

def opening : List String :=
  ["<!DOCTYPE html>",
    "<html lang=\"en\">",
    "<head>",
    "    <meta charset=\"UTF-8\">",
    "    <meta name=\"viewport\" content=\"width=device-width, initial-scale=1.0\">",
    "    <title>"]

def beforeLibrary : List String :=
  ["</title>",
    "    <script src=\""]

def style : List String :=
  ["\"></script>",
    "    <style>",
    "        :root \x7b",
    "            --bg-base: #fafafa;",
    "            --bg-sidebar: #1f2937;",
    "            --text-sidebar: #e5e7eb;",
    "            --accent: #3b82f6;",
    "            --border: #e5e7eb;",
    "        \x7d",
    "        * \x7b box-sizing: border-box; \x7d",
    "        body \x7b",
    "            margin: 0;",
    "            display: flex;",
    "            height: 100vh;",
    "            font-family: -apple-system, BlinkMacSystemFont, \"Segoe UI\", Roboto, sans-serif;",
    "            background: var(--bg-base);",
    "        \x7d",
    "        nav \x7b",
    "            width: 300px;",
    "            overflow-y: auto;",
    "            background: var(--bg-sidebar);",
    "            color: var(--text-sidebar);",
    "            padding: 16px 0;",
    "        \x7d",
    "        nav h1 \x7b font-size: 16px; padding: 0 16px; margin: 0 0 8px; \x7d",
    "        #summary \x7b font-size: 11px; opacity: 0.7; padding: 0 16px; margin: 0 0 12px; \x7d",
    "        nav h2 \x7b",
    "            font-size: 11px;",
    "            text-transform: uppercase;",
    "            letter-spacing: 0.08em;",
    "            opacity: 0.6;",
    "            padding: 12px 16px 4px;",
    "            margin: 0;",
    "        \x7d",
    "        nav input \x7b",
    "            margin: 0 16px 8px;",
    "            width: calc(100% - 32px);",
    "            padding: 6px 8px;",
    "            border-radius: 4px;",
    "            border: none;",
    "        \x7d",
    "        nav a \x7b",
    "            display: block;",
    "            padding: 6px 16px;",
    "            color: inherit;",
    "            text-decoration: none;",
    "            font-size: 13px;",
    "            white-space: nowrap;",
    "            overflow: hidden;",
    "            text-overflow: ellipsis;",
    "        \x7d",
    "        nav a:hover \x7b background: rgba(255, 255, 255, 0.06); \x7d",
    "        nav a.active \x7b background: var(--accent); color: #fff; \x7d",
    "        main \x7b flex: 1; overflow: auto; padding: 24px; \x7d",
    "        header \x7b display: flex; align-items: center; gap: 12px; border-bottom: 1px solid var(--border); \x7d",
    "        header h2 \x7b flex: 1; margin: 0 0 12px; font-size: 18px; \x7d",
    "        header button \x7b margin-bottom: 12px; \x7d",
    "        #diagram \x7b padding-top: 16px; \x7d",
    "        #source \x7b display: none; white-space: pre; background: #111827; color: #f9fafb; padding: 16px; \x7d",
    "        .empty \x7b color: #6b7280; font-style: italic; \x7d",
    "    </style>",
    "</head>",
    "<body>",
    "    <nav>",
    "        <h1>"]

def beforeInventory : List String :=
  ["</h1>",
    "        <p id=\"summary\"></p>",
    "        <input id=\"search\" type=\"search\" placeholder=\"Filter diagrams...\">",
    "        <div id=\"menu\"></div>",
    "    </nav>",
    "    <main>",
    "        <header>",
    "            <h2 id=\"diagram-title\"></h2>",
    "            <button id=\"toggle-source\">Source</button>",
    "        </header>",
    "        <div id=\"diagram\"></div>",
    "        <pre id=\"source\"></pre>",
    "    </main>",
    "    <script>",
    "        const analysisData = "]

def beforeDiagrams : List String :=
  [";",
    "        const diagrams = "]

def script : List String :=
  [";",
    "",
    "        mermaid.initialize(\x7b startOnLoad: false, securityLevel: \"loose\", flowchart: \x7b useMaxWidth: false \x7d \x7d);",
    "",
    "        const sections = [",
    "            \x7b title: \"Overview\", items: diagrams.overview \x7d,",
    "            \x7b title: \"Chains\", items: diagrams.chains \x7d,",
    "            \x7b title: \"Command Chains\", items: diagrams.commandChains \x7d,",
    "        ];",
    "",
    "        let renderCount = 0;",
    "",
    "        async function show(item, link) \x7b",
    "            document.querySelectorAll(\"nav a\").forEach(a => a.classList.remove(\"active\"));",
    "            if (link) link.classList.add(\"active\");",
    "            document.getElementById(\"diagram-title\").textContent = item.name;",
    "            document.getElementById(\"source\").textContent = item.diagram;",
    "            const target = document.getElementById(\"diagram\");",
    "            try \x7b",
    "                const \x7b svg \x7d = await mermaid.render(\"mermaid-\" + (++renderCount), item.diagram);",
    "                target.innerHTML = svg;",
    "            \x7d catch (err) \x7b",
    "                target.innerHTML = \"\";",
    "                const p = document.createElement(\"p\");",
    "                p.className = \"empty\";",
    "                p.textContent = \"Failed to render diagram: \" + err;",
    "                target.appendChild(p);",
    "            \x7d",
    "        \x7d",
    "",
    "        function buildMenu(filter) \x7b",
    "            const menu = document.getElementById(\"menu\");",
    "            menu.innerHTML = \"\";",
    "            const needle = (filter || \"\").toLowerCase();",
    "            for (const section of sections) \x7b",
    "                const items = section.items.filter(i => i.name.toLowerCase().includes(needle));",
    "                if (!items.length) continue;",
    "                const h = document.createElement(\"h2\");",
    "                h.textContent = section.title + \" (\" + items.length + \")\";",
    "                menu.appendChild(h);",
    "                for (const item of items) \x7b",
    "                    const a = document.createElement(\"a\");",
    "                    a.href = \"#\";",
    "                    a.textContent = item.name;",
    "                    a.title = item.name;",
    "                    a.addEventListener(\"click\", e => \x7b e.preventDefault(); show(item, a); \x7d);",
    "                    menu.appendChild(a);",
    "                \x7d",
    "            \x7d",
    "        \x7d",
    "",
    "        document.getElementById(\"search\").addEventListener(\"input\", e => buildMenu(e.target.value));",
    "        document.getElementById(\"toggle-source\").addEventListener(\"click\", () => \x7b",
    "            const src = document.getElementById(\"source\");",
    "            src.style.display = src.style.display === \"block\" ? \"none\" : \"block\";",
    "        \x7d);",
    "",
    "        document.getElementById(\"summary\").textContent = [",
    "            [\"controllers\", \"Controllers\"], [\"commands\", \"Commands\"], [\"entities\", \"Entities\"],",
    "            [\"domainEvents\", \"Domain events\"], [\"relationships\", \"Relationships\"],",
    "        ].map(([key, label]) => label + \": \" + analysisData[key].length).join(\" / \");",
    "",
    "        buildMenu(\"\");",
    "        if (diagrams.overview.length) \x7b",
    "            show(diagrams.overview[0], document.querySelector(\"nav a\"));",
    "        \x7d",
    "    </script>",
    "</body>",
    "</html>",
    ""]

def template : List Piece :=
  [.literal ("\n".intercalate opening),
    .place .title,
    .literal ("\n".intercalate beforeLibrary),
    .place .library,
    .literal ("\n".intercalate style),
    .place .title,
    .literal ("\n".intercalate beforeInventory),
    .place .inventory,
    .literal ("\n".intercalate beforeDiagrams),
    .place .diagrams,
    .literal ("\n".intercalate script)]

def templateText : String := String.join (template.map (·.text))

end FlowAtlas.Page
