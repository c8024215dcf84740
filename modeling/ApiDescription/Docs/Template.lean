/-!
# The settings file of a manual

A settings file is a sequence of remarks and settings.  A setting is given by an expression with
places for what is known about the manual.
-/

namespace ApiDescription.Docs

inductive Entry where
  | remark (lines : List String)
  | setting (name : String) (source : List String)

def Entry.lines : Entry → List String
  | remark lines => lines
  | setting name [] => [name ++ " = "]
  | setting name (first :: rest) => (name ++ " = " ++ first) :: rest

/-- The settings file before anything is known about the manual. -/
def template : List Entry := [
  .remark [
    "# -*- coding: utf-8 -*-",
    "#",
    "# Starbucks API documentation build configuration file, created by",
    "# sphinx-quickstart on Thu Apr 18 14:32:56 2013.",
    "#",
    "# This file is execfile()d with the current directory set to its containing dir.",
    "#",
    "# Note that not all possible configuration values are present in this",
    "# autogenerated file.",
    "#",
    "# All configuration values have a default; values that are commented out",
    "# serve to show the default.",
    "",
    "import sys, os",
    "",
    "# If extensions (or modules to document with autodoc) are in another directory,",
    "# add these directories to sys.path here. If the directory is relative to the",
    "# documentation root, use os.path.abspath to make it absolute, like shown here.",
    "#sys.path.insert(0, os.path.abspath('.'))",
    "",
    "# -- General configuration -----------------------------------------------------",
    "",
    "# If your documentation needs a minimal Sphinx version, state it here.",
    "#needs_sphinx = '1.0'",
    "",
    "# Add any Sphinx extension module names here, as strings. They can be extensions",
    "# coming with Sphinx (named 'sphinx.ext.*') or your custom ones."],
  .setting "extensions" ["[]"],
  .remark [
    "",
    "# Add any paths that contain templates here, relative to this directory."],
  .setting "templates_path" ["['_templates']"],
  .remark [
    "",
    "# The suffix of source filenames."],
  .setting "source_suffix" ["'.rst'"],
  .remark [
    "",
    "# The encoding of source files.",
    "#source_encoding = 'utf-8-sig'",
    "",
    "# The master toctree document."],
  .setting "master_doc" ["'index'"],
  .remark [
    "",
    "# General information about the project."],
  .setting "project" ["'\x7b__project__\x7d'"],
  .setting "copyright" ["'\x7b__year__\x7d, \x7b__authors__\x7d'"],
  .remark [
    "",
    "# The version info for the project you're documenting, acts as replacement for",
    "# |version| and |release|, also used in various other places throughout the",
    "# built documents.",
    "#",
    "# The short X.Y version."],
  .setting "version" ["'\x7b__version__\x7d'"],
  .remark [
    "# The full version, including alpha/beta/rc tags."],
  .setting "release" ["'\x7b__version__\x7d'"],
  .remark [
    "",
    "# The language for content autogenerated by Sphinx. Refer to documentation",
    "# for a list of supported languages.",
    "#language = None",
    "",
    "# There are two options for replacing |today|: either, you set today to some",
    "# non-false value, then it is used:",
    "#today = ''",
    "# Else, today_fmt is used as the format for a strftime call.",
    "#today_fmt = '%B %d, %Y'",
    "",
    "# List of patterns, relative to source directory, that match files and",
    "# directories to ignore when looking for source files."],
  .setting "exclude_patterns" ["['_build']"],
  .remark [
    "",
    "# The reST default role (used for this markup: `text`) to use for all documents.",
    "#default_role = None",
    "",
    "# If true, '()' will be appended to :func: etc. cross-reference text.",
    "#add_function_parentheses = True",
    "",
    "# If true, the current module name will be prepended to all description",
    "# unit titles (such as .. function::).",
    "#add_module_names = True",
    "",
    "# If true, sectionauthor and moduleauthor directives will be shown in the",
    "# output. They are ignored by default.",
    "#show_authors = False",
    "",
    "# The name of the Pygments (syntax highlighting) style to use."],
  .setting "pygments_style" ["'sphinx'"],
  .remark [
    "",
    "# A list of ignored prefixes for module index sorting.",
    "#modindex_common_prefix = []",
    "",
    "# If true, keep warnings as \"system message\" paragraphs in the built documents.",
    "#keep_warnings = False",
    "",
    "",
    "# -- Options for HTML output ---------------------------------------------------",
    "",
    "# The theme to use for HTML and HTML Help pages.  See the documentation for",
    "# a list of builtin themes."],
  .setting "html_theme" ["'default'"],
  .remark [
    "",
    "# Theme options are theme-specific and customize the look and feel of a theme",
    "# further.  For a list of options available for each theme, see the",
    "# documentation.",
    "#html_theme_options = \x7b\x7d",
    "",
    "# Add any paths that contain custom themes here, relative to this directory.",
    "#html_theme_path = []",
    "",
    "# The name for this set of Sphinx documents.  If None, it defaults to",
    "# \"<project> v<release> documentation\".",
    "#html_title = None",
    "",
    "# A shorter title for the navigation bar.  Default is the same as html_title.",
    "#html_short_title = None",
    "",
    "# The name of an image file (relative to this directory) to place at the top",
    "# of the sidebar.",
    "#html_logo = None",
    "",
    "# The name of an image file (within the static path) to use as favicon of the",
    "# docs.  This file should be a Windows icon file (.ico) being 16x16 or 32x32",
    "# pixels large.",
    "#html_favicon = None",
    "",
    "# Add any paths that contain custom static files (such as style sheets) here,",
    "# relative to this directory. They are copied after the builtin static files,",
    "# so a file named \"default.css\" will overwrite the builtin \"default.css\"."],
  .setting "html_static_path" ["['_static']"],
  .remark [
    "",
    "# If not '', a 'Last updated on:' timestamp is inserted at every page bottom,",
    "# using the given strftime format.",
    "#html_last_updated_fmt = '%b %d, %Y'",
    "",
    "# If true, SmartyPants will be used to convert quotes and dashes to",
    "# typographically correct entities.",
    "#html_use_smartypants = True",
    "",
    "# Custom sidebar templates, maps document names to template names.",
    "#html_sidebars = \x7b\x7d",
    "",
    "# Additional templates that should be rendered to pages, maps page names to",
    "# template names.",
    "#html_additional_pages = \x7b\x7d",
    "",
    "# If false, no module index is generated.",
    "#html_domain_indices = True",
    "",
    "# If false, no index is generated.",
    "#html_use_index = True",
    "",
    "# If true, the index is split into individual pages for each letter.",
    "#html_split_index = False",
    "",
    "# If true, links to the reST sources are added to the pages.",
    "#html_show_sourcelink = True",
    "",
    "# If true, \"Created using Sphinx\" is shown in the HTML footer. Default is True.",
    "#html_show_sphinx = True",
    "",
    "# If true, \"(C) Copyright ...\" is shown in the HTML footer. Default is True.",
    "#html_show_copyright = True",
    "",
    "# If true, an OpenSearch description file will be output, and all pages will",
    "# contain a <link> tag referring to it.  The value of this option must be the",
    "# base URL from which the finished HTML is served.",
    "#html_use_opensearch = ''",
    "",
    "# This is the file name suffix for HTML files (e.g. \".xhtml\").",
    "#html_file_suffix = None",
    "",
    "# Output file base name for HTML help builder."],
  .setting "htmlhelp_basename" ["'\x7b__base__\x7d'"],
  .remark [
    "",
    "",
    "# -- Options for LaTeX output --------------------------------------------------",
    ""],
  .setting "latex_elements" [
    "\x7b",
    "# The paper size ('letterpaper' or 'a4paper').",
    "#'papersize': 'letterpaper',",
    "",
    "# The font size ('10pt', '11pt' or '12pt').",
    "#'pointsize': '10pt',",
    "",
    "# Additional stuff for the LaTeX preamble.",
    "#'preamble': '',",
    "\x7d"],
  .remark [
    "",
    "# Grouping the document tree into LaTeX files. List of tuples",
    "# (source start file, target name, title, author, documentclass [howto/manual])."],
  .setting "latex_documents" [
    "[",
    "  ('index', '\x7b__base__\x7d.tex', '\x7b__project__\x7d Documentation',",
    "   '\x7b__authors__\x7d', 'manual'),",
    "]"],
  .remark [
    "",
    "# The name of an image file (relative to this directory) to place at the top of",
    "# the title page.",
    "#latex_logo = None",
    "",
    "# For \"manual\" documents, if this is true, then toplevel headings are parts,",
    "# not chapters.",
    "#latex_use_parts = False",
    "",
    "# If true, show page references after internal links.",
    "#latex_show_pagerefs = False",
    "",
    "# If true, show URL addresses after external links.",
    "#latex_show_urls = False",
    "",
    "# Documents to append as an appendix to all manuals.",
    "#latex_appendices = []",
    "",
    "# If false, no module index is generated.",
    "#latex_domain_indices = True",
    "",
    "",
    "# -- Options for manual page output --------------------------------------------",
    "",
    "# One entry per manual page. List of tuples",
    "# (source start file, name, description, authors, manual section)."],
  .setting "man_pages" [
    "[",
    "    ('index', '\x7b__base__\x7d', '\x7b__project__\x7d Documentation',",
    "     ['\x7b__authors__\x7d'], 1)",
    "]"],
  .remark [
    "",
    "# If true, show URL addresses after external links.",
    "#man_show_urls = False",
    "",
    "",
    "# -- Options for Texinfo output ------------------------------------------------",
    "",
    "# Grouping the document tree into Texinfo files. List of tuples",
    "# (source start file, target name, title, author,",
    "#  dir menu entry, description, category)"],
  .setting "texinfo_documents" [
    "[",
    "  ('index', '\x7b__base__\x7d', '\x7b__project__\x7d Documentation',",
    "   '\x7b__authors__\x7d', '\x7b__project__\x7d', 'One line description of project.',",
    "   'Miscellaneous'),",
    "]"],
  .remark [
    "",
    "# Documents to append as an appendix to all manuals.",
    "#texinfo_appendices = []",
    "",
    "# If false, no module index is generated.",
    "#texinfo_domain_indices = True",
    "",
    "# How to display URL addresses: 'footnote', 'no', or 'inline'.",
    "#texinfo_show_urls = 'footnote'",
    "",
    "# If true, do not generate a @detailmenu in the \"Top\" node's menu.",
    "#texinfo_no_detailmenu = False"]]

end ApiDescription.Docs
